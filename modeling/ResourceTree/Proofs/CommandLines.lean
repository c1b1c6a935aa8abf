import ResourceTree.Proofs.LineWords

/-! # Command lines that are read back

A line is read word by word, and what has been read at its end is what the line says (`LineReader.says_of_run`,
`LineReader.run_of_says`). So a command is read from a line just if this says a verb, in letters of any case, a
resource and arguments (`Command.ofWords_eq_ok_iff`): whatever options stand between the words of a command, it is
read back from its line, and a line is rejected if a word is missing or does not fit (`Command.lines_parse_back`). -/

namespace ResourceTree

/-! ## Reading a line -/

namespace LineReader

variable {r r' : LineReader} {word : String} {line words parents : List String} {c : Command} {v : Verb}

/-- A first word is a verb just if it spells one. -/
theorem verbOf_eq_ok_iff : verbOf word = .ok v ↔ v.Spelled word := by
  rw [← Verb.ofWord?_eq_some_iff, verbOf]
  by_cases h : word = ""
  · subst h
    simp [Verb.ofWord?_eq_some_iff, Verb.Spelled]
    cases v <;> decide
  · have hempty : word.isEmpty = false := by simpa using h
    rw [hempty, if_neg Bool.false_ne_true]
    cases Verb.ofWord? word <;> simp

/-- Nothing is left open if no option waits for its value and a first word is a verb. -/
theorem settle_eq_ok (hwaiting : r.waiting = false) (hverb : ∀ word, r.words = [word] → ∃ v : Verb, v.Spelled word) :
    r.settle = .ok () := by
  rw [settle, hwaiting, if_neg Bool.false_ne_true]
  split
  · next word hwords =>
      obtain ⟨v, hv⟩ := hverb word hwords
      rw [verbOf_eq_ok_iff.mpr hv]
      rfl
  · rfl

theorem not_waiting_of_settle (h : r.settle = .ok ()) : r.waiting = false := by
  rw [settle] at h
  cases hwaiting : r.waiting with
  | false => rfl
  | true =>
      rw [hwaiting, if_pos rfl] at h
      cases h

/-- A word that belongs to no option is added to the others. -/
theorem push_eq_ok_iff : r.push word = .ok r' ↔ r.settle = .ok () ∧ r' = { r with words := r.words ++ [word] } := by
  rw [push]
  cases r.settle with
  | error e => exact ⟨nofun, nofun⟩
  | ok u => exact ⟨fun h => ⟨rfl, (Except.ok.inj h).symm⟩, fun h => congrArg Except.ok h.2.symm⟩

/-- **What one more word does** before the word `--`. -/
inductive Steps (r : LineReader) : String → LineReader → Prop
  | separator : Steps r "--" { r with literal := true }
  | word {word : String} (hword : IsPlainWord word) (hsettle : r.settle = .ok ()) :
      Steps r word { r with words := r.words ++ [word] }
  | value {id : String} (hid : IsPlainWord id) (hwaiting : r.waiting = true) :
      Steps r id { r with parents := r.parents ++ [id], waiting := false }
  | option (hsettle : r.settle = .ok ()) : Steps r "--parent" { r with waiting := true }
  | joined {id : String} (hsettle : r.settle = .ok ()) :
      Steps r ("--parent=" ++ id) { r with parents := r.parents ++ [id] }

theorem steps_of_step (hliteral : r.literal = false) (h : r.step word = .ok r') : r.Steps word r' := by
  obtain ⟨words, parents, waiting, literal⟩ := r
  cases hliteral
  have hspelling := LineWord.spelling_of word
  have hbare : "--" ++ "parent" = "--parent" := by decide
  have hvalued : "--" ++ "parent" ++ "=" = "--parent=" := by decide
  rw [step, if_neg Bool.false_ne_true] at h
  generalize LineWord.of word = kind at h hspelling
  cases hspelling with
  | separator =>
      cases h
      exact .separator
  | @bare name hname hequals =>
      by_cases hparent : name = "parent"
      · subst hparent
        obtain ⟨u, hsettle, h⟩ := except_bind_eq_ok h
        cases h
        rw [hbare]
        exact .option hsettle
      · simp at h
  | @valued name value hequals =>
      by_cases hparent : name = "parent"
      · subst hparent
        obtain ⟨u, hsettle, h⟩ := except_bind_eq_ok h
        cases h
        rw [hvalued]
        exact .joined hsettle
      · simp at h
  | short hc hword => cases h
  | plain hword =>
      dsimp only at h
      split at h
      · next hwaiting =>
          cases h
          exact .value hword hwaiting
      · obtain ⟨hsettle, rfl⟩ := push_eq_ok_iff.mp h
        exact .word hword hsettle

theorem step_of_steps (hliteral : r.literal = false) (h : r.Steps word r') : r.step word = .ok r' := by
  obtain ⟨words, parents, waiting, literal⟩ := r
  cases hliteral
  rw [step, if_neg Bool.false_ne_true]
  cases h with
  | separator => rfl
  | word hword hsettle =>
      have hwaiting := not_waiting_of_settle hsettle
      rw [LineWord.of_plain hword]
      dsimp only at hwaiting ⊢
      rw [hwaiting, if_neg Bool.false_ne_true, push_eq_ok_iff]
      exact ⟨hwaiting ▸ hsettle, rfl⟩
  | value hid hwaiting =>
      dsimp only at hwaiting
      rw [LineWord.of_plain hid, hwaiting]
      rfl
  | option hsettle =>
      have hof : LineWord.of "--parent" = .long "parent" none := by rfl
      rw [hof]
      dsimp only
      rw [hsettle]
      rfl
  | @joined id hsettle =>
      rw [LineWord.of_joined]
      dsimp only
      rw [hsettle]
      rfl

/-- The words before the rest of a line that are still open: an option that waits for its value. -/
def pending (r : LineReader) : List String := if r.waiting then ["--parent"] else []

theorem pending_of_settled (h : r.waiting = false) : r.pending = [] := by
  rw [pending, h, if_neg Bool.false_ne_true]

theorem pending_of_waiting (h : r.waiting = true) : r.pending = ["--parent"] := by
  rw [pending, h, if_pos rfl]

/-- Behind the word `--` all words are added. -/
theorem run_of_literal (h : line.foldlM step r = .ok r') (hliteral : r.literal = true) :
    r' = { r with words := r.words ++ line } ∧ (line ≠ [] → r.waiting = false) := by
  induction line generalizing r with
  | nil =>
      cases h
      exact ⟨by rw [List.append_nil], fun hne => absurd rfl hne⟩
  | cons word line ih =>
      rw [List.foldlM_cons] at h
      obtain ⟨next, hstep, h⟩ := except_bind_eq_ok h
      rw [step, if_pos hliteral] at hstep
      obtain ⟨hsettle, rfl⟩ := push_eq_ok_iff.mp hstep
      obtain ⟨rfl, -⟩ := ih h hliteral
      exact ⟨by rw [List.append_assoc, List.singleton_append], fun _ => not_waiting_of_settle hsettle⟩

/-- **What has been read is what the line says**, with an option before it that waits for its value. -/
theorem says_of_run (h : line.foldlM step r = .ok r') (hliteral : r.literal = false) (hdone : r'.waiting = false) :
    ∃ words parents, Line.Says (r.pending ++ line) words parents ∧
      r'.words = r.words ++ words ∧ r'.parents = r.parents ++ parents := by
  induction line generalizing r with
  | nil =>
      cases h
      refine ⟨[], [], ?_, by rw [List.append_nil], by rw [List.append_nil]⟩
      rw [pending_of_settled hdone]
      exact .nil
  | cons word line ih =>
      rw [List.foldlM_cons] at h
      obtain ⟨next, hstep, h⟩ := except_bind_eq_ok h
      cases steps_of_step hliteral hstep with
      | separator =>
          obtain ⟨rfl, -⟩ := run_of_literal h rfl
          refine ⟨line, [], ?_, rfl, (List.append_nil r.parents).symm⟩
          have hwaiting : r.waiting = false := hdone
          rw [pending_of_settled hwaiting]
          exact .literal line
      | word hword hsettle =>
          obtain ⟨words, parents, hsays, hwords, hparents⟩ := ih h hliteral
          have hwaiting := not_waiting_of_settle hsettle
          rw [pending_of_settled hwaiting]
          refine ⟨word :: words, parents, .word hword (by simpa [pending, hwaiting] using hsays), ?_, hparents⟩
          rw [hwords, List.append_assoc, List.singleton_append]
      | value hid hwaiting =>
          -- the option that is open before the word takes it as its ID
          obtain ⟨words, parents, hsays, hwords, hparents⟩ := ih h hliteral
          rw [pending_of_waiting hwaiting]
          refine ⟨words, word :: parents, .parent hid hsays, hwords, ?_⟩
          rw [hparents, List.append_assoc, List.singleton_append]
      | option hsettle =>
          obtain ⟨words, parents, hsays, hwords, hparents⟩ := ih h hliteral
          rw [pending_of_settled (not_waiting_of_settle hsettle)]
          exact ⟨words, parents, hsays, hwords, hparents⟩
      | @joined id hsettle =>
          obtain ⟨words, parents, hsays, hwords, hparents⟩ := ih h hliteral
          have hwaiting := not_waiting_of_settle hsettle
          rw [pending_of_settled hwaiting]
          refine ⟨words, id :: parents, .joined (by simpa [pending, hwaiting] using hsays), hwords, ?_⟩
          rw [hparents, List.append_assoc, List.singleton_append]

/-- Whatever first word there is, it is a verb: nothing stands in the way of more words. -/
theorem settle_of_verbs (hwaiting : r.waiting = false)
    (hverb : ∀ word more, r.words ++ words = word :: more → ∃ v : Verb, v.Spelled word) : r.settle = .ok () :=
  settle_eq_ok hwaiting fun first hfirst => hverb first words (by rw [hfirst, List.singleton_append])

theorem literal_run (hliteral : r.literal = true) (hwaiting : r.waiting = false)
    (hverb : ∀ word more, r.words ++ line = word :: more → ∃ v : Verb, v.Spelled word) :
    line.foldlM step r = .ok { r with words := r.words ++ line } := by
  induction line generalizing r with
  | nil =>
      rw [List.foldlM_nil, List.append_nil]
      rfl
  | cons word line ih =>
      have hstep : r.step word = .ok { r with words := r.words ++ [word] } := by
        rw [step, if_pos hliteral, push_eq_ok_iff]
        exact ⟨settle_of_verbs hwaiting hverb, rfl⟩
      have happend : r.words ++ [word] ++ line = r.words ++ word :: line := by simp
      rw [← happend] at hverb ⊢
      rw [List.foldlM_cons, hstep]
      exact ih hliteral hwaiting hverb

/-- **What a line says is read** if a first word is a verb. -/
theorem run_of_says (h : Line.Says line words parents) (hliteral : r.literal = false) (hwaiting : r.waiting = false)
    (hverb : ∀ word more, r.words ++ words = word :: more → ∃ v : Verb, v.Spelled word) :
    ∃ literal, line.foldlM step r = .ok ⟨r.words ++ words, r.parents ++ parents, false, literal⟩ := by
  induction h generalizing r with
  | nil =>
      obtain ⟨words, parents, waiting, literal⟩ := r
      cases hwaiting
      rw [List.foldlM_nil, List.append_nil, List.append_nil]
      exact ⟨literal, rfl⟩
  | @word word line words parents hword _ ih =>
      have happend : r.words ++ word :: words = r.words ++ [word] ++ words := by simp
      rw [List.foldlM_cons, step_of_steps hliteral (.word hword (settle_of_verbs hwaiting hverb)), happend]
      rw [happend] at hverb
      exact ih hliteral hwaiting hverb
  | @parent id line words parents hid _ ih =>
      have happend : r.parents ++ id :: parents = r.parents ++ [id] ++ parents := by simp
      rw [List.foldlM_cons, step_of_steps hliteral (.option (settle_of_verbs hwaiting hverb)), happend]
      -- the option and its ID are two words, and in between the option is open
      have hvalue := step_of_steps (r := { r with waiting := true }) hliteral (.value hid rfl)
      change ∃ literal, (id :: line).foldlM step { r with waiting := true } = _
      rw [List.foldlM_cons, hvalue]
      exact ih hliteral rfl hverb
  | @joined id line words parents _ ih =>
      have happend : r.parents ++ id :: parents = r.parents ++ [id] ++ parents := by simp
      rw [List.foldlM_cons, step_of_steps hliteral (.joined (settle_of_verbs hwaiting hverb)), happend]
      exact ih hliteral hwaiting hverb
  | literal line =>
      have hstep := step_of_steps hliteral .separator
      rw [List.foldlM_cons, hstep, List.append_nil, ← hwaiting]
      exact ⟨true, literal_run rfl hwaiting hverb⟩

/-- **A command at the end of the words** is a verb, a resource and the rest. -/
theorem finish_eq_ok_iff : r.finish = .ok c ↔
    r.waiting = false ∧ r.parents = c.parents ∧
      ∃ verb, c.verb.Spelled verb ∧ r.words = verb :: c.resource :: c.args := by
  constructor
  · intro h
    rw [finish] at h
    obtain ⟨u, hsettle, h⟩ := except_bind_eq_ok h
    refine ⟨not_waiting_of_settle hsettle, ?_⟩
    split at h
    · next verb resource args hwords =>
        obtain ⟨v, hverb, h⟩ := except_bind_eq_ok h
        cases h
        exact ⟨rfl, verb, verbOf_eq_ok_iff.mp hverb, hwords⟩
    · cases h
    · cases h
  · rintro ⟨hwaiting, hparents, verb, hverb, hwords⟩
    have hsettle : r.settle = .ok () := settle_eq_ok hwaiting fun word hword => by
      rw [hwords] at hword
      cases hword
    rw [finish, hsettle, hwords]
    change (verbOf verb >>= _) = _
    rw [verbOf_eq_ok_iff.mpr hverb, hparents]
    rfl

end LineReader

/-! ## Commands -/

namespace Command

variable {c : Command} {line words parents : List String}

/-- **A line is the one of a command** just if it says a verb, in letters of any case, a resource and arguments, and
the IDs of the ancestors. -/
theorem ofWords_eq_ok_iff : ofWords line = .ok c ↔
    ∃ verb, c.verb.Spelled verb ∧ Line.Says line (verb :: c.resource :: c.args) c.parents := by
  have hread : ofWords line = .ok c ↔ line.foldlM LineReader.step {} >>= LineReader.finish = .ok c := by
    rw [ofWords]
    cases line.foldlM LineReader.step {} >>= LineReader.finish <;> simp
  rw [hread]
  constructor
  · intro h
    obtain ⟨r, hrun, hfinish⟩ := except_bind_eq_ok h
    obtain ⟨hwaiting, hparents, verb, hverb, hwords⟩ := LineReader.finish_eq_ok_iff.mp hfinish
    obtain ⟨words, parents, hsays, hw, hp⟩ := LineReader.says_of_run hrun rfl hwaiting
    rw [List.nil_append] at hw hp
    rw [hw] at hwords
    rw [hp] at hparents
    subst hwords hparents
    exact ⟨verb, hverb, hsays⟩
  · rintro ⟨verb, hverb, hsays⟩
    obtain ⟨literal, hrun⟩ := LineReader.run_of_says (r := {}) hsays rfl rfl fun word more h => by
      cases h
      exact ⟨c.verb, hverb⟩
    have hfinish : LineReader.finish ⟨verb :: c.resource :: c.args, c.parents, false, literal⟩ = .ok c :=
      LineReader.finish_eq_ok_iff.mpr ⟨rfl, rfl, verb, hverb, rfl⟩
    rw [hrun]
    exact hfinish

/-- A line that is no command. -/
def Rejected (line : List String) : Prop := ∃ reason, ofWords line = .error (.invalidCommand reason)

theorem rejected_of (h : ∀ c, ofWords line ≠ .ok c) : Rejected line := by
  rw [Rejected]
  cases hline : ofWords line with
  | ok c => exact absurd hline (h c)
  | error e =>
      rw [ofWords] at hline
      split at hline
      · cases hline
      · cases hline
        exact ⟨_, rfl⟩

/-- A line of options and behind them a word that spells no verb is rejected. -/
theorem rejected_of_not_verb {options rest given : List String} {word : String}
    (hoptions : Line.Says options [] given) (hword : "--" ∈ options ∨ IsPlainWord word)
    (hverb : ∀ v : Verb, ¬v.Spelled word) : Rejected (options ++ word :: rest) := by
  refine rejected_of fun c hc => ?_
  obtain ⟨verb, hspelled, hsays⟩ := ofWords_eq_ok_iff.mp hc
  obtain ⟨more, hmore⟩ := hoptions.first hword hsays
  cases hmore
  exact hverb c.verb hspelled

/-- **Command lines are read back.** A word for a verb in letters of any case, and behind it a resource and arguments,
with options `--parent` and their IDs anywhere between these, is the line of just this command. A line is rejected if
it says no verb or no resource, if the first word that it says is no verb, and if an option before the word `--` is
not known or is a `--parent` at the end of the line. -/
theorem lines_parse_back :
    (∀ (v : Verb) (word resource : String) (args parents line : List String), v.Spelled word →
      (∀ w ∈ (resource :: args) ++ parents, IsPlainWord w) → Line.Interleaves line (resource :: args) parents →
      ofWords (word :: line) = .ok ⟨v, resource, parents, args⟩) ∧
    (∀ line words parents : List String, Line.Says line words parents → words.length < 2 → Rejected line) ∧
    (∀ (options given rest : List String) (word : String), Line.Says options [] given →
      ("--" ∈ options ∨ IsPlainWord word) → (∀ v : Verb, ¬v.Spelled word) → Rejected (options ++ word :: rest)) ∧
    (∀ (before rest : List String) (option : String), "--" ∉ before → (∃ name, name ≠ "" ∧ option = "--" ++ name) →
      option ≠ "--parent" → (∀ id, option ≠ "--parent=" ++ id) → Rejected (before ++ option :: rest)) ∧
    (∀ before : List String, "--" ∉ before → Rejected (before ++ ["--parent"])) := by
  refine ⟨?_, ?_, ?_, ?_, ?_⟩
  · intro v word resource args parents line hverb hplain hline
    rw [ofWords_eq_ok_iff]
    exact ⟨word, hverb, .word hverb.isPlainWord (hline.toSays hplain)⟩
  · intro line words parents hsays hshort
    refine rejected_of fun c hc => ?_
    obtain ⟨verb, -, hcommand⟩ := ofWords_eq_ok_iff.mp hc
    obtain ⟨rfl, -⟩ := hsays.unique hcommand
    rw [List.length_cons, List.length_cons] at hshort
    omega
  · intro options given rest word hoptions hword hverb
    exact rejected_of_not_verb hoptions hword hverb
  · intro before rest option hbefore hdashes hparent hjoined
    refine rejected_of fun c hc => ?_
    obtain ⟨verb, -, hcommand⟩ := ofWords_eq_ok_iff.mp hc
    exact Line.not_says_option hbefore hdashes hparent hjoined hcommand
  · intro before hbefore
    refine rejected_of fun c hc => ?_
    obtain ⟨verb, -, hcommand⟩ := ofWords_eq_ok_iff.mp hc
    exact Line.not_says_final_parent hbefore hcommand

/-- The IDs of an artist and an album are read from both sides of the resource; and lines that lack a resource, that
name no verb, that hold an unknown option or an option without a value are rejected. -/
theorem lines_parse_back_tracks :
    ofWords ["LiSt", "--parent", "a1", "tracks", "title=B", "--parent", "b2", "year=2001"] =
      .ok ⟨.list, "tracks", ["a1", "b2"], ["title=B", "year=2001"]⟩ ∧
    Rejected ["get", "--parent", "a1"] ∧
    Rejected ["--parent=a1", "fetch", "albums"] ∧
    Rejected ["get", "albums", "--depth=2", "b2"] ∧
    Rejected ["get", "tracks", "--parent", "a1", "--parent"] := by
  obtain ⟨hread, hshort, hverb, hoption, hfinal⟩ := lines_parse_back
  refine ⟨?_, ?_, ?_, ?_, ?_⟩
  · exact hread .list "LiSt" "tracks" ["title=B", "year=2001"] ["a1", "b2"] _ (by decide) (by decide)
      (.parent (.word (.word (.parent (.word .nil)))))
  · exact hshort _ ["get"] ["a1"] (.word (by decide) (.parent (by decide) .nil)) (by decide)
  · have hid : "--parent=" ++ "a1" = "--parent=a1" := by decide
    have hsays : Line.Says ["--parent=a1"] [] ["a1"] := hid ▸ .joined .nil
    exact hverb _ ["a1"] ["albums"] "fetch" hsays (.inr (by decide)) fun v => by cases v <;> decide
  · have hjoined : ∀ id, "--depth=2" ≠ "--parent=" ++ id := by
      intro id h
      have hfirst := congrArg (fun s => s.toList[2]?) h
      simp at hfirst
    exact hoption ["get", "albums"] ["b2"] "--depth=2" (by decide) ⟨"depth=2", by decide, by decide⟩ (by decide) hjoined
  · exact hfinal ["get", "tracks", "--parent", "a1"] (by decide)

end Command

end ResourceTree
