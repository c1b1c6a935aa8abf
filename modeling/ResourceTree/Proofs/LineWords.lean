import ResourceTree.Client.Command
import ResourceTree.Proofs.FormQueries
import ResourceTree.Proofs.ServerUrls

/-! # What command lines say

The words of a command line are options with one or two dashes and plain words (`LineWord.Spelling`). `Line.Says`
describes what a line of such words says: which of them belong to no option, and which IDs the options `--parent`
give. A line says one thing at most (`Line.Says.unique`), and with an option that is not known, or that lacks its
value, it says nothing (`Line.not_says_option`, `Line.not_says_final_parent`). -/

namespace ResourceTree

/-! ## Verbs in any case -/

namespace Verb

variable {v : Verb} {word : String}

/-- **A word spells a verb**: its letters are those of the verb, each in lower or upper case. -/
def Spelled (v : Verb) (word : String) : Prop :=
  List.Forall₂ (fun c letter => c = letter ∨ c = letter.toUpper) word.toList v.word.toList

instance (v : Verb) (word : String) : Decidable (v.Spelled word) :=
  inferInstanceAs (Decidable (List.Forall₂ _ _ _))

/-- A letter is the lower or the upper case of what it is in lower case. -/
theorem eq_or_eq_toUpper (c : Char) : c = c.toLower ∨ c = c.toLower.toUpper := by
  have hascii : ∀ n < 128, Char.ofNat n = (Char.ofNat n).toLower ∨ Char.ofNat n = (Char.ofNat n).toLower.toUpper := by
    decide
  by_cases h : c.toNat < 128
  · have hc := hascii c.toNat h
    rwa [Char.ofNat_toNat] at hc
  · -- no other character has another case
    refine Or.inl (Eq.symm (dif_neg fun hupper => ?_))
    have hle : c.toNat ≤ 90 := by
      simpa [UInt32.le_iff_toNat_le] using hupper.2
    omega

/-- The letters of verbs are in lower case. -/
theorem toLower_of_mem_word (v : Verb) : ∀ letter ∈ v.word.toList,
    letter.toLower = letter ∧ letter.toUpper.toLower = letter ∧ letter ≠ '-' ∧ letter.toUpper ≠ '-' := by
  cases v <;> simp [word]

/-- A word spells a verb just if it is the verb's in lower case. -/
theorem spelled_iff : v.Spelled word ↔ v.word = folded word := by
  have hfolded : v.word = folded word ↔ v.word.toList = word.toList.map Char.toLower := by
    rw [folded, ← String.toList_inj, String.toList_ofList]
  rw [hfolded, Spelled]
  have hletters := v.toLower_of_mem_word
  generalize v.word.toList = letters at hletters ⊢
  generalize word.toList = cs
  constructor
  · intro h
    induction h with
    | nil => rfl
    | @cons c letter cs letters hc _ ih =>
        obtain ⟨hlower, hupper, -⟩ := hletters letter List.mem_cons_self
        rw [List.map_cons, ← ih fun d hd => hletters d (List.mem_cons_of_mem letter hd)]
        obtain rfl | rfl := hc
        · rw [hlower]
        · rw [hupper]
  · rintro rfl
    clear hletters
    induction cs with
    | nil => exact .nil
    | cons c cs ih => exact .cons (eq_or_eq_toUpper c) ih

/-- **The verb of a word** is the one that the word spells. -/
theorem ofWord?_eq_some_iff : ofWord? word = some v ↔ v.Spelled word := by
  rw [spelled_iff]
  constructor
  · intro h
    have hword := List.find?_some h
    exact beq_iff_eq.mp hword
  · intro h
    rw [ofWord?, ← h]
    cases v <;> decide

end Verb

/-! ## Words of a line -/

/-- A word that is no option: it does not begin with a dash, or it is a dash alone. -/
def IsPlainWord (word : String) : Prop := ∀ c cs, word.toList ≠ '-' :: c :: cs

instance (word : String) : Decidable (IsPlainWord word) :=
  decidable_of_iff ((match word.toList with
      | '-' :: _ :: _ => false
      | _ => true) = true) (by
    rw [IsPlainWord]
    split
    · next c cs h => simp [h]
    · next h => simpa using h)

/-- A word that spells a verb begins with no dash. -/
theorem Verb.Spelled.isPlainWord {v : Verb} {word : String} (h : v.Spelled word) : IsPlainWord word := by
  intro c cs hword
  have hletters := v.toLower_of_mem_word
  rw [Verb.Spelled, hword] at h
  generalize v.word.toList = letters at h hletters
  cases h with
  | @cons _ letter _ _ hc _ =>
      obtain ⟨-, -, hlower, hupper⟩ := hletters letter List.mem_cons_self
      rcases hc with hc | hc
      · exact hlower hc.symm
      · exact hupper hc.symm

namespace LineWord

variable {word id : String}

/-- A word behind two dashes is cut at its first equals sign. -/
theorem of_dashes {cs : List Char} (h : word.toList = '-' :: '-' :: cs) (hne : cs ≠ []) :
    of word = .long (String.ofList (Text.cutAt '=' cs).1) ((Text.cutAt '=' cs).2.map String.ofList) := by
  rw [of, h]
  cases cs with
  | nil => exact absurd rfl hne
  | cons c cs => rfl

/-- A word that is no option is taken as it is. -/
theorem of_plain (h : IsPlainWord word) : of word = .plain := by
  rw [of]
  split
  · next hword => exact absurd hword (h _ _)
  · next hword => exact absurd hword (h _ _)
  · next hword => exact absurd hword (h _ _)
  · rfl

/-- A word behind one dash is an option by its first letter. -/
theorem of_dash {c : Char} {cs : List Char} (hc : c ≠ '-') (h : word.toList = '-' :: c :: cs) :
    of word = .short c := by
  rw [of, h]
  split
  · next heq => simp_all
  · next heq => simp_all
  · next heq => simp_all
  · next heq => simp_all

/-- An option `--parent` with its value. -/
theorem of_joined (id : String) : of ("--parent=" ++ id) = .long "parent" (some id) := by
  have hequals : '=' ∉ "parent".toList := by decide
  have hcut : Text.cutAt '=' ("parent".toList ++ '=' :: id.toList) = ("parent".toList, some id.toList) :=
    Text.cutAt_append_cons hequals id.toList
  have hword : ("--parent=" ++ id).toList = '-' :: '-' :: ("parent".toList ++ '=' :: id.toList) := by simp
  rw [of_dashes hword (by simp), hcut]
  simp

/-- **What words are**: each kind of word has one spelling. -/
inductive Spelling : String → LineWord → Prop
  | separator : Spelling "--" .separator
  | bare {name : String} (hname : name ≠ "") (h : '=' ∉ name.toList) : Spelling ("--" ++ name) (.long name none)
  | valued {name value : String} (h : '=' ∉ name.toList) :
      Spelling ("--" ++ name ++ "=" ++ value) (.long name (some value))
  | short {word : String} {c : Char} {cs : List Char} (hc : c ≠ '-') (h : word.toList = '-' :: c :: cs) :
      Spelling word (.short c)
  | plain {word : String} (h : IsPlainWord word) : Spelling word .plain

/-- Each word has a spelling of what it is. -/
theorem spelling_of (word : String) : Spelling word (of word) := by
  by_cases hplain : IsPlainWord word
  · rw [of_plain hplain]
    exact .plain hplain
  · obtain ⟨c, cs, h⟩ : ∃ c cs, word.toList = '-' :: c :: cs := by
      simpa [IsPlainWord] using hplain
    by_cases hc : c = '-'
    · subst hc
      by_cases hne : cs = []
      · subst hne
        obtain rfl : word = "--" := String.toList_inj.mp (h.trans (by decide))
        exact .separator
      · rw [of_dashes h hne]
        by_cases hequals : '=' ∈ cs
        · obtain ⟨before, after, rfl, hbefore⟩ := List.eq_append_cons_of_mem hequals
          rw [Text.cutAt_append_cons hbefore]
          obtain rfl : word = "--" ++ String.ofList before ++ "=" ++ String.ofList after :=
            String.toList_inj.mp (by simp [h])
          exact .valued (by rwa [String.toList_ofList])
        · rw [Text.cutAt_of_not_mem hequals]
          obtain rfl : word = "--" ++ String.ofList cs := String.toList_inj.mp (by simp [h])
          exact .bare (by simpa using hne) (by rwa [String.toList_ofList])
    · rw [of_dash hc h]
      exact .short hc h

end LineWord

/-! ## What a line says -/

namespace Line

/-- **What a line says**: the words that belong to no option and the IDs of the options `--parent`, both in the order
of the line. Behind the word `--` all words are taken as they are. -/
inductive Says : List String → List String → List String → Prop
  | nil : Says [] [] []
  | word {word : String} {line words parents : List String} (hword : IsPlainWord word)
      (rest : Says line words parents) : Says (word :: line) (word :: words) parents
  /-- The ID is the word behind the option. -/
  | parent {id : String} {line words parents : List String} (hid : IsPlainWord id)
      (rest : Says line words parents) : Says ("--parent" :: id :: line) words (id :: parents)
  /-- The ID is a part of the option. -/
  | joined {id : String} {line words parents : List String} (rest : Says line words parents) :
      Says (("--parent=" ++ id) :: line) words (id :: parents)
  | literal (line : List String) : Says ("--" :: line) line []

/-- **Words with options among them**: a line of these words in which a pair of `--parent` and an ID stands for each
of these IDs, wherever it is. -/
inductive Interleaves : List String → List String → List String → Prop
  | nil : Interleaves [] [] []
  | word {word : String} {line words parents : List String} (rest : Interleaves line words parents) :
      Interleaves (word :: line) (word :: words) parents
  | parent {id : String} {line words parents : List String} (rest : Interleaves line words parents) :
      Interleaves ("--parent" :: id :: line) words (id :: parents)

variable {line words parents : List String}

/-- Such a line says these words and these IDs. -/
theorem Interleaves.toSays (h : Interleaves line words parents) (hplain : ∀ word ∈ words ++ parents, IsPlainWord word) :
    Says line words parents := by
  induction h with
  | nil => exact .nil
  | @word word line words parents _ ih =>
      exact .word (hplain word List.mem_cons_self) (ih fun w hw => hplain w (List.mem_cons_of_mem word hw))
  | @parent id line words parents _ ih =>
      have hid := hplain id (List.mem_append_right words List.mem_cons_self)
      refine .parent hid (ih fun w hw => hplain w ?_)
      rcases List.mem_append.mp hw with hw | hw
      · exact List.mem_append_left _ hw
      · exact List.mem_append_right words (List.mem_cons_of_mem id hw)

/-! ### What the first word says -/

theorem not_isPlainWord_separator : ¬IsPlainWord "--" := by decide

theorem not_isPlainWord_parent : ¬IsPlainWord "--parent" := by decide

theorem not_isPlainWord_joined (id : String) : ¬IsPlainWord ("--parent=" ++ id) := by
  intro h
  exact h '-' ("parent=".toList ++ id.toList) (by simp)

/-- A value behind an equals sign makes the option longer. -/
theorem joined_ne {word : String} (id : String) (h : word.length < 9) : "--parent=" ++ id ≠ word := by
  rintro rfl
  have hlength : "--parent=".length = 9 := by decide
  rw [String.length_append, hlength] at h
  omega

theorem says_word_iff {word : String} (hword : IsPlainWord word) :
    Says (word :: line) words parents ↔ ∃ more, words = word :: more ∧ Says line more parents := by
  constructor
  · intro h
    cases h with
    | @word _ _ more _ _ rest => exact ⟨more, rfl, rest⟩
    | parent _ _ => exact absurd hword not_isPlainWord_parent
    | @joined id _ _ _ _ => exact absurd hword (not_isPlainWord_joined id)
    | literal _ => exact absurd hword not_isPlainWord_separator
  · rintro ⟨more, rfl, rest⟩
    exact .word hword rest

theorem says_parent_iff : Says ("--parent" :: line) words parents ↔
    ∃ id rest more, line = id :: rest ∧ parents = id :: more ∧ IsPlainWord id ∧ Says rest words more := by
  constructor
  · intro h
    generalize hword : "--parent" = word at h
    cases h with
    | word hplain _ => exact absurd (hword ▸ hplain) not_isPlainWord_parent
    | @parent id rest _ more hid h => exact ⟨id, rest, more, rfl, rfl, hid, h⟩
    | @joined id _ _ _ _ => exact absurd hword.symm (joined_ne id (by decide))
    | literal _ => exact absurd hword (by decide)
  · rintro ⟨id, rest, more, rfl, rfl, hid, h⟩
    exact .parent hid h

theorem says_joined_iff {id : String} : Says (("--parent=" ++ id) :: line) words parents ↔
    ∃ more, parents = id :: more ∧ Says line words more := by
  constructor
  · intro h
    generalize hword : "--parent=" ++ id = word at h
    cases h with
    | word hplain _ => exact absurd (hword ▸ hplain) (not_isPlainWord_joined id)
    | parent _ _ => exact absurd hword (joined_ne id (by decide))
    | @joined id' _ _ more rest =>
        obtain rfl : id = id' := by simpa using hword
        exact ⟨more, rfl, rest⟩
    | literal _ => exact absurd hword (joined_ne id (by decide))
  · rintro ⟨more, rfl, rest⟩
    exact .joined rest

theorem says_separator_iff : Says ("--" :: line) words parents ↔ words = line ∧ parents = [] := by
  constructor
  · intro h
    generalize hword : "--" = word at h
    cases h with
    | word hplain _ => exact absurd (hword ▸ hplain) not_isPlainWord_separator
    | parent _ _ => exact absurd hword (by decide)
    | @joined id _ _ _ _ => exact absurd hword.symm (joined_ne id (by decide))
    | literal _ => exact ⟨rfl, rfl⟩
  · rintro ⟨rfl, rfl⟩
    exact .literal words

/-! ### What lines cannot say -/

/-- A line says one thing at most. -/
theorem Says.unique {words' parents' : List String} (h : Says line words parents) (h' : Says line words' parents') :
    words = words' ∧ parents = parents' := by
  induction h generalizing words' parents' with
  | nil =>
      cases h'
      exact ⟨rfl, rfl⟩
  | word hword _ ih =>
      obtain ⟨more, rfl, rest⟩ := (says_word_iff hword).mp h'
      obtain ⟨rfl, rfl⟩ := ih rest
      exact ⟨rfl, rfl⟩
  | parent _ _ ih =>
      obtain ⟨id, rest, more, hline, rfl, -, h'⟩ := says_parent_iff.mp h'
      cases hline
      obtain ⟨rfl, rfl⟩ := ih h'
      exact ⟨rfl, rfl⟩
  | joined _ ih =>
      obtain ⟨more, rfl, rest⟩ := says_joined_iff.mp h'
      obtain ⟨rfl, rfl⟩ := ih rest
      exact ⟨rfl, rfl⟩
  | literal line =>
      obtain ⟨rfl, rfl⟩ := says_separator_iff.mp h'
      exact ⟨rfl, rfl⟩

/-- Behind options alone a word is the first that the line says. -/
theorem Says.first {options rest : List String} {word : String} {given : List String} (hoptions : Says options [] given)
    (hword : "--" ∈ options ∨ IsPlainWord word) (h : Says (options ++ word :: rest) words parents) :
    ∃ more, words = word :: more := by
  generalize hnone : ([] : List String) = none at hoptions
  induction hoptions generalizing parents with
  | nil =>
      have hplain : IsPlainWord word := hword.resolve_left List.not_mem_nil
      obtain ⟨more, rfl, -⟩ := (says_word_iff hplain).mp h
      exact ⟨more, rfl⟩
  | word _ _ _ => cases hnone
  | @parent id line _ _ hid _ ih =>
      obtain ⟨id', rest', more, hline, rfl, -, h⟩ := says_parent_iff.mp h
      cases hline
      refine ih (hword.imp_left fun hmem => ?_) h hnone
      -- the ID is no separator
      have hne : "--" ≠ id := by
        rintro rfl
        exact not_isPlainWord_separator hid
      simpa [hne] using hmem
  | @joined id line _ _ _ ih =>
      obtain ⟨more, rfl, h'⟩ := says_joined_iff.mp h
      refine ih (hword.imp_left fun hmem => ?_) h' hnone
      simpa [(joined_ne id (by decide : "--".length < 9)).symm] using hmem
  | literal line =>
      cases hnone
      obtain ⟨rfl, -⟩ := says_separator_iff.mp h
      exact ⟨rest, rfl⟩

/-- An option with which no line begins stands nowhere before the word `--`. -/
theorem not_says_append {option : String} {before rest : List String} (hbefore : "--" ∉ before)
    (hoption : ¬IsPlainWord option) (hrest : ∀ words parents, ¬Says (option :: rest) words parents) :
    ¬Says (before ++ option :: rest) words parents := by
  intro h
  generalize hline : before ++ option :: rest = line at h
  induction h generalizing before with
  | nil => simp at hline
  | word hword h ih =>
      cases before with
      | nil =>
          cases hline
          exact hoption hword
      | cons first before =>
          cases hline
          exact ih (fun hmem => hbefore (List.mem_cons_of_mem _ hmem)) rfl
  | @parent id line words parents hid h ih =>
      -- the option may be the first word, the ID behind it, or further on
      match before, hline with
      | [], hline =>
          cases hline
          exact hrest _ _ (.parent hid h)
      | [_], hline =>
          cases hline
          exact hoption hid
      | first :: second :: before, hline =>
          cases hline
          exact ih (fun hmem => hbefore (List.mem_cons_of_mem _ (List.mem_cons_of_mem _ hmem))) rfl
  | joined h ih =>
      cases before with
      | nil =>
          cases hline
          exact hrest _ _ (.joined h)
      | cons first before =>
          cases hline
          exact ih (fun hmem => hbefore (List.mem_cons_of_mem _ hmem)) rfl
  | literal line =>
      cases before with
      | nil =>
          cases hline
          exact hrest _ _ (.literal rest)
      | cons first before =>
          cases hline
          exact hbefore List.mem_cons_self

/-- An option that is not `--parent` stands nowhere before the word `--`. -/
theorem not_says_option {option : String} {before rest : List String} (hbefore : "--" ∉ before)
    (hdashes : ∃ name, name ≠ "" ∧ option = "--" ++ name) (hparent : option ≠ "--parent")
    (hjoined : ∀ id, option ≠ "--parent=" ++ id) : ¬Says (before ++ option :: rest) words parents := by
  obtain ⟨name, hname, rfl⟩ := hdashes
  have hoption : ¬IsPlainWord ("--" ++ name) := by
    obtain ⟨c, cs, hcs⟩ := List.exists_cons_of_ne_nil fun h => hname (String.toList_eq_nil_iff.mp h)
    intro h
    exact h '-' (c :: cs) (by simp [hcs])
  refine not_says_append hbefore hoption fun words parents h => ?_
  generalize hword : "--" ++ name = word at h
  cases h with
  | word hplain _ => exact hoption (hword ▸ hplain)
  | parent _ _ => exact hparent hword
  | @joined id _ _ _ _ => exact hjoined id hword
  | literal _ =>
      have hlength := congrArg String.length hword
      rw [String.length_append, Nat.add_eq_left] at hlength
      exact hname (String.length_eq_zero_iff.mp hlength)

/-- The option `--parent` stands nowhere at the end of a line, unless behind the word `--`. -/
theorem not_says_final_parent {before : List String} (hbefore : "--" ∉ before) :
    ¬Says (before ++ ["--parent"]) words parents := by
  refine not_says_append hbefore not_isPlainWord_parent fun words parents h => ?_
  obtain ⟨id, rest, more, hline, -⟩ := says_parent_iff.mp h
  cases hline

end Line

end ResourceTree
