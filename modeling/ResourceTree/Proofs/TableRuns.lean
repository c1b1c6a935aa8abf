import Mathlib.Data.List.Induction
import ResourceTree.Client.Table
import ResourceTree.Proofs.TreeRoutes

/-! # Runs of table tests

A table test passes its cases one after another, and the first that does not pass ends the run. `Case.Passes` says
which outcome of its command a case passes with, and `Case.Faults` what is wrong with another one: of several things
the one that the first of the checks finds. `TableTest.Ends` says how a run ends, and `TableTest.runAll_decides` that
every run ends so, whatever the network answers and whatever a text means as a pattern. -/

namespace ResourceTree

variable {W : Type} {patterns : PatternLanguage}

/-! ## Checks -/

/-- **What a check decides**: it accepts rightly, or what it reports is wrong. -/
inductive CaseProblem.Decides {α : Type} (accepts : Prop) (rejects : CaseProblem → Prop) :
    Except CaseProblem α → Prop
  | accepted {a : α} (h : accepts) : Decides accepts rejects (.ok a)
  | rejected {problem : CaseProblem} (h : rejects problem) : Decides accepts rejects (.error problem)

open CaseProblem (Decides)

/-- Of two checks in a row the second counts if the first accepts. -/
theorem CaseProblem.Decides.bind {α β : Type} {x : Except CaseProblem α} {f : α → Except CaseProblem β}
    {accepts accepts' : Prop} {rejects : CaseProblem → Prop} (hx : Decides accepts rejects x)
    (hf : accepts → ∀ a, Decides accepts' rejects (f a)) : Decides accepts' rejects (x >>= f) := by
  cases hx with
  | accepted h => exact hf h _
  | rejected h => exact .rejected h

theorem CaseProblem.Decides.imp {α : Type} {x : Except CaseProblem α} {accepts accepts' : Prop}
    {rejects rejects' : CaseProblem → Prop} (hx : Decides accepts rejects x) (haccepts : accepts → accepts')
    (hrejects : ∀ problem, rejects problem → rejects' problem) : Decides accepts' rejects' x := by
  cases hx with
  | accepted h => exact .accepted (haccepts h)
  | rejected h => exact .rejected (hrejects _ h)

theorem CaseProblem.Decides.map {α β : Type} {x : Except CaseProblem α} {accepts : Prop}
    {rejects : CaseProblem → Prop} (hx : Decides accepts rejects x) (f : α → β) :
    Decides accepts rejects (x.map f) := by
  cases hx with
  | accepted h => exact .accepted h
  | rejected h => exact .rejected h

/-! ## The data of a command that succeeded -/

namespace Expectation

variable {e : Expectation} {value : Json} {problem : CaseProblem}

/-- A pattern that is one, and that is found in the text of the data. -/
def Finds (patterns : PatternLanguage) (pattern : String) (value : Json) : Prop :=
  ∃ isFoundIn, patterns pattern = some isFoundIn ∧ isFoundIn value.text = true

/-- **What the data of a command must be** for a case that expects it to succeed. -/
structure Fits (patterns : PatternLanguage) (e : Expectation) (value : Json) : Prop where
  noBody : e.noBody = true → value = .null
  pattern : ∀ pattern, e.pattern = some pattern → Finds patterns pattern value
  body : ∀ body, e.body = some body → body.same value = true

/-- **What is wrong with data that does not fit**: that there is some, or else the pattern, or else the data as a
whole. -/
inductive Misfits (patterns : PatternLanguage) (e : Expectation) (value : Json) : CaseProblem → Prop
  | someBody (hexpected : e.noBody = true) (hvalue : value ≠ .null) :
      Misfits patterns e value (.wrongBody "no body" value.text)
  | malformed {pattern : String} (hnoBody : e.noBody = true → value = .null) (hexpected : e.pattern = some pattern)
      (hpattern : patterns pattern = none) : Misfits patterns e value (.pattern malformedPattern)
  | notFound {pattern : String} {isFoundIn : String → Bool} (hnoBody : e.noBody = true → value = .null)
      (hexpected : e.pattern = some pattern) (hpattern : patterns pattern = some isFoundIn)
      (hvalue : isFoundIn value.text = false) :
      Misfits patterns e value (.wrongBody ("matching /" ++ pattern ++ "/") value.text)
  | otherBody {body : Json} (hnoBody : e.noBody = true → value = .null)
      (hpattern : ∀ pattern, e.pattern = some pattern → Finds patterns pattern value)
      (hexpected : e.body = some body) (hvalue : body.same value = false) :
      Misfits patterns e value (.wrongBody body.text value.text)

theorem not_finds_of_malformed {pattern : String} (hpattern : patterns pattern = none) :
    ¬Finds patterns pattern value := by
  rintro ⟨isFoundIn, hsome, -⟩
  cases hpattern.symm.trans hsome

theorem not_finds_of_notFound {pattern : String} {isFoundIn : String → Bool}
    (hpattern : patterns pattern = some isFoundIn) (hvalue : isFoundIn value.text = false) :
    ¬Finds patterns pattern value := by
  rintro ⟨isFoundIn', hsome, hfound⟩
  cases hpattern.symm.trans hsome
  cases hvalue.symm.trans hfound

theorem Misfits.not_fits (h : e.Misfits patterns value problem) : ¬e.Fits patterns value := by
  intro hfits
  cases h with
  | someBody hexpected hvalue => exact hvalue (hfits.noBody hexpected)
  | malformed _ hexpected hpattern => exact not_finds_of_malformed hpattern (hfits.pattern _ hexpected)
  | notFound _ hexpected hpattern hvalue => exact not_finds_of_notFound hpattern hvalue (hfits.pattern _ hexpected)
  | otherBody _ _ hexpected hvalue => cases hvalue.symm.trans (hfits.body _ hexpected)

theorem checkNoBody_of_null (h : e.noBody = true → value = .null) : e.checkNoBody value = .ok () := by
  cases hexpected : e.noBody with
  | false => simp only [checkNoBody, hexpected, Bool.false_and, Bool.false_eq_true, if_false]
  | true =>
      rw [h hexpected, checkNoBody]
      simp [Json.isNull]

theorem checkNoBody_of_some (hexpected : e.noBody = true) (hvalue : value ≠ .null) :
    e.checkNoBody value = .error (.wrongBody "no body" value.text) := by
  have hsome : value.isNull = false := by
    cases value with
    | null => exact absurd rfl hvalue
    | _ => rfl
  simp only [checkNoBody, hexpected, hsome, Bool.not_false, Bool.and_self, if_true]

theorem checkNoBody_decides (patterns : PatternLanguage) (e : Expectation) (value : Json) :
    Decides (e.noBody = true → value = .null) (e.Misfits patterns value) (e.checkNoBody value) := by
  by_cases h : e.noBody = true → value = .null
  · rw [checkNoBody_of_null h]
    exact .accepted h
  · obtain ⟨hexpected, hvalue⟩ := Classical.not_imp.mp h
    rw [checkNoBody_of_some hexpected hvalue]
    exact .rejected (.someBody hexpected hvalue)

theorem checkPattern_decides (patterns : PatternLanguage) (hnoBody : e.noBody = true → value = .null) :
    Decides (∀ pattern, e.pattern = some pattern → Finds patterns pattern value) (e.Misfits patterns value)
      (e.checkPattern patterns value) := by
  cases hexpected : e.pattern with
  | none =>
      simp only [checkPattern, hexpected]
      exact .accepted nofun
  | some pattern =>
      simp only [checkPattern, hexpected]
      cases hpattern : patterns pattern with
      | none => exact .rejected (.malformed hnoBody hexpected hpattern)
      | some isFoundIn =>
          cases hvalue : isFoundIn value.text with
          | false =>
              simp only [hvalue]
              exact .rejected (.notFound hnoBody hexpected hpattern hvalue)
          | true =>
              simp only [hvalue]
              refine .accepted fun pattern' h => ?_
              cases h
              exact ⟨isFoundIn, hpattern, hvalue⟩

theorem checkWhole_decides (hnoBody : e.noBody = true → value = .null)
    (hpattern : ∀ pattern, e.pattern = some pattern → Finds patterns pattern value) :
    Decides (∀ body, e.body = some body → body.same value = true) (e.Misfits patterns value)
      (e.checkWhole value) := by
  cases hexpected : e.body with
  | none =>
      simp only [checkWhole, hexpected]
      exact .accepted nofun
  | some body =>
      cases hvalue : body.same value with
      | false =>
          simp only [checkWhole, hexpected, hvalue]
          exact .rejected (.otherBody hnoBody hpattern hexpected hvalue)
      | true =>
          simp only [checkWhole, hexpected, hvalue]
          refine .accepted fun body' h => ?_
          cases h
          exact hvalue

/-- **The data is checked rightly**: it is accepted only if it fits, and what is reported is the misfit. -/
theorem checkBody_decides (patterns : PatternLanguage) (e : Expectation) (value : Json) :
    Decides (e.Fits patterns value) (e.Misfits patterns value) (e.checkBody patterns value) := by
  refine (checkNoBody_decides patterns e value).bind fun hnoBody _ => ?_
  refine (checkPattern_decides patterns hnoBody).bind fun hpattern _ => ?_
  exact (checkWhole_decides hnoBody hpattern).imp (fun hbody => ⟨hnoBody, hpattern, hbody⟩) fun _ h => h

/-- A pattern that is found is no fault. -/
theorem checkPattern_of_finds (h : ∀ pattern, e.pattern = some pattern → Finds patterns pattern value) :
    e.checkPattern patterns value = .ok () := by
  cases hexpected : e.pattern with
  | none => simp only [checkPattern, hexpected]
  | some pattern =>
      obtain ⟨isFoundIn, hpattern, hfound⟩ := h pattern hexpected
      simp only [checkPattern, hexpected, hpattern, hfound, if_true]

/-- **A misfit is reported**, since the checks before it accept. -/
theorem Misfits.reported (h : e.Misfits patterns value problem) : e.checkBody patterns value = .error problem := by
  rw [checkBody]
  -- the premises of each form are those of the checks that come before
  cases h with
  | someBody hexpected hvalue =>
      rw [checkNoBody_of_some hexpected hvalue]
      rfl
  | malformed hnoBody hexpected hpattern =>
      rw [checkNoBody_of_null hnoBody]
      simp only [checkPattern, hexpected, hpattern]
      rfl
  | notFound hnoBody hexpected hpattern hvalue =>
      rw [checkNoBody_of_null hnoBody]
      simp only [checkPattern, hexpected, hpattern, hvalue]
      rfl
  | otherBody hnoBody hpattern hexpected hvalue =>
      rw [checkNoBody_of_null hnoBody, checkPattern_of_finds hpattern]
      simp only [checkWhole, hexpected, hvalue]
      rfl

/-- Data that fits is accepted. -/
theorem Fits.accepted (h : e.Fits patterns value) : e.checkBody patterns value = .ok () := by
  have hdecides := checkBody_decides patterns e value
  cases hcheck : e.checkBody patterns value with
  | ok _ => rfl
  | error problem =>
      rw [hcheck] at hdecides
      cases hdecides with
      | rejected hmisfits => exact absurd h hmisfits.not_fits

end Expectation

/-! ## The outcome of a case -/

namespace Case

variable {c : Case} {outcome : Except ClientError Json} {problem : CaseProblem}

/-- **The outcomes that a case passes with.** If no error is expected, the command succeeds with data that fits and
that the check of the case accepts; else it fails with just the text that is expected, and with the status if one is
expected. -/
inductive Passes (patterns : PatternLanguage) (c : Case) : Except ClientError Json → Prop
  | succeeds {value : Json} (hexpected : c.expected.error = none) (hfits : c.expected.Fits patterns value)
      (hcheck : ∀ check, c.check = some check → check value = .ok ()) : Passes patterns c (.ok value)
  | fails {e : ClientError} (hexpected : c.expected.error = some e.message)
      (hstatus : ∀ status, c.expected.status = some status → e.status = some status) : Passes patterns c (.error e)

/-- What is wrong with an outcome that a case does not pass with: data that does not fit comes before the check of the
case, and another error before another status. -/
inductive Faults (patterns : PatternLanguage) (c : Case) : Except ClientError Json → CaseProblem → Prop
  | failed {e : ClientError} (hexpected : c.expected.error = none) : Faults patterns c (.error e) (.failed e)
  | misfits {value : Json} {problem : CaseProblem} (hexpected : c.expected.error = none)
      (hmisfits : c.expected.Misfits patterns value problem) : Faults patterns c (.ok value) problem
  | assertion {value : Json} {check : Json → Except String Unit} {message : String}
      (hexpected : c.expected.error = none) (hfits : c.expected.Fits patterns value) (hcheck : c.check = some check)
      (hmessage : check value = .error message) : Faults patterns c (.ok value) (.assertion message)
  | succeeded {value : Json} {text : String} (hexpected : c.expected.error = some text) :
      Faults patterns c (.ok value) (.succeeded text)
  | wrongError {e : ClientError} {text : String} (hexpected : c.expected.error = some text)
      (htext : e.message ≠ text) : Faults patterns c (.error e) (.wrongError text e.message)
  | wrongStatus {e : ClientError} {status : Nat} (hexpected : c.expected.error = some e.message)
      (hstatus : c.expected.status = some status) (hother : e.status ≠ some status) :
      Faults patterns c (.error e) (.wrongStatus status e.status)

theorem Faults.not_passes (h : c.Faults patterns outcome problem) : ¬c.Passes patterns outcome := by
  intro hpasses
  cases hpasses with
  | succeeds hexpected hfits hcheck =>
      cases h with
      | misfits _ hmisfits => exact hmisfits.not_fits hfits
      | assertion _ _ hsome hmessage => cases hmessage.symm.trans (hcheck _ hsome)
      | succeeded hsome => cases hexpected.symm.trans hsome
  | fails hexpected hstatus =>
      cases h with
      | failed hnone => cases hnone.symm.trans hexpected
      | wrongError hsome htext => exact htext (Option.some.inj (hexpected.symm.trans hsome))
      | wrongStatus _ hsome hother => exact hother (hstatus _ hsome)

theorem checkError_decides (patterns : PatternLanguage) {text : String} (hexpected : c.expected.error = some text)
    (e : ClientError) : Decides (c.Passes patterns (.error e)) (c.Faults patterns (.error e))
      (c.expected.checkError text e) := by
  rw [Expectation.checkError]
  split
  · next htext => exact .rejected (.wrongError hexpected htext)
  · next htext =>
      rw [not_not] at htext
      subst htext
      cases hsome : c.expected.status with
      | none => exact .accepted (.fails hexpected (by simp [hsome]))
      | some status =>
          by_cases hstatus : e.status = some status
          · simp only [if_pos hstatus]
            refine .accepted (.fails hexpected fun status' h => ?_)
            cases hsome.symm.trans h
            exact hstatus
          · simp only [if_neg hstatus]
            exact .rejected (.wrongStatus hexpected hsome hstatus)

/-- **A case is judged rightly**: it is accepted only with an outcome that it passes with, and what is reported is
wrong with the outcome. -/
theorem judge_decides (patterns : PatternLanguage) (c : Case) (outcome : Except ClientError Json) :
    Decides (c.Passes patterns outcome) (c.Faults patterns outcome) (c.judge patterns outcome) := by
  cases hexpected : c.expected.error with
  | none =>
      cases outcome with
      | error e =>
          simp only [judge, hexpected]
          exact .rejected (.failed hexpected)
      | ok value =>
          simp only [judge, hexpected]
          have hbody := (c.expected.checkBody_decides patterns value).imp id fun _ => Faults.misfits (c := c) hexpected
          refine hbody.bind fun hfits _ => ?_
          cases hcheck : c.check with
          | none => exact .accepted (.succeeds hexpected hfits (by simp [hcheck]))
          | some check =>
              cases hvalue : check value with
              | error message =>
                  simp only [hvalue]
                  exact .rejected (.assertion hexpected hfits hcheck hvalue)
              | ok _ =>
                  simp only [hvalue]
                  refine .accepted (.succeeds hexpected hfits fun check' h => ?_)
                  cases hcheck.symm.trans h
                  exact hvalue
  | some text =>
      cases outcome with
      | ok value =>
          simp only [judge, hexpected]
          exact .rejected (.succeeded hexpected)
      | error e =>
          have hchecked := checkError_decides patterns hexpected e
          simp only [judge, hexpected]
          exact hchecked.map fun _ => Json.null

/-- **A fault is reported**, whatever else is wrong with the outcome. -/
theorem Faults.reported (h : c.Faults patterns outcome problem) : c.judge patterns outcome = .error problem := by
  cases h with
  | failed hexpected => simp only [judge, hexpected]
  | misfits hexpected hmisfits =>
      simp only [judge, hexpected, hmisfits.reported]
      rfl
  | assertion hexpected hfits hcheck hmessage =>
      simp only [judge, hexpected, hfits.accepted, hcheck, hmessage]
      rfl
  | succeeded hexpected => simp only [judge, hexpected]
  | wrongError hexpected htext =>
      simp only [judge, hexpected, Expectation.checkError, if_pos htext]
      rfl
  | wrongStatus hexpected hstatus hother =>
      simp only [judge, hexpected, Expectation.checkError, hstatus, ne_eq, not_true_eq_false, if_false, if_neg hother]
      rfl

end Case

/-! ## What is remembered -/

/-- A case of a table with the outcome of its command. -/
structure Played where
  case : Case
  outcome : Except ClientError Json

/-- The data that is remembered of a case that passed: that of a command which was to succeed. -/
def Played.data? (p : Played) : Option Json :=
  match p.outcome, p.case.expected.error with
  | .ok value, none => some value
  | _, _ => none

/-- The data of a case that is accepted is that of its command, if the command was to succeed. -/
theorem Case.data?_of_judge {c : Case} {outcome : Except ClientError Json} {value : Json}
    (h : c.judge patterns outcome = .ok value) :
    Played.data? ⟨c, outcome⟩ = if c.expected.error.isSome then none else some value := by
  cases hexpected : c.expected.error with
  | some text => cases outcome <;> simp [Played.data?, hexpected]
  | none =>
      cases outcome with
      | error e => simp [judge, hexpected] at h
      | ok value' =>
          simp only [judge, hexpected] at h
          obtain ⟨-, -, h⟩ := except_bind_eq_ok h
          have hvalue : value' = value := by
            split at h
            · split at h <;> cases h
              rfl
            · cases h
              rfl
          simp [Played.data?, hexpected, hvalue]

namespace Responses

/-- What is remembered after a case that passed. -/
def record (r : Responses) (p : Played) : Responses :=
  match p.data? with
  | some value => r.remember p.case.name value
  | none => r

/-- What is remembered after cases that passed, the last one last. -/
def after (r : Responses) (played : List Played) : Responses := played.foldl record r

theorem get?_record (r : Responses) (p : Played) (name : String) :
    (r.record p).get? name = (if p.case.name = name then p.data? else none).or (r.get? name) := by
  rw [record]
  cases p.data? with
  | none => simp
  | some value =>
      have hput : (r.remember p.case.name value).get? name = if p.case.name = name then some value else r.get? name :=
        Fields.get?_put r.data p.case.name name value
      simp only [hput]
      split <;> rfl

/-- **Under a name there is the data of the last case of this name** that was to succeed, or what there was before. -/
theorem get?_after (r : Responses) (played : List Played) (name : String) :
    (r.after played).get? name =
      (played.reverse.findSome? fun p => if p.case.name = name then p.data? else none).or (r.get? name) := by
  induction played using List.reverseRecOn with
  | nil => rfl
  | append_singleton played p ih =>
      rw [after, List.foldl_append, List.foldl_cons, List.foldl_nil, ← after, get?_record, ih, List.reverse_append,
        List.reverse_singleton, List.singleton_append, List.findSome?_cons]
      cases (if p.case.name = name then p.data? else none) with
      | none => rfl
      | some value => rfl

end Responses

/-! ## Runs -/

namespace TableTest

variable {net : Network W} {t : TableTest} {cases : List Case} {w : W}

/-- The table test with what it remembers after cases that passed. -/
def recording (t : TableTest) (played : List Played) : TableTest :=
  { t with responses := t.responses.after played }

/-- **Cases that are played one after another and all pass**, from what is remembered in one world to another world.
The command of each is made from what is remembered so far, and is run once, in the world that the one before it has
left. -/
inductive Plays (net : Network W) (clients : ClientMap) (patterns : PatternLanguage) :
    Responses → W → List Played → W → Prop
  | nil {r : Responses} {w : W} : Plays net clients patterns r w [] w
  | cons {r : Responses} {w w₁ w₂ : W} {c : Case} {outcome : Except ClientError Json} {played : List Played}
      (hrun : clients.run net (c.command r) w = (outcome, w₁)) (hpasses : c.Passes patterns outcome)
      (hplays : Plays net clients patterns (r.record ⟨c, outcome⟩) w₁ played w₂) :
      Plays net clients patterns r w (⟨c, outcome⟩ :: played) w₂

/-- **How a run of cases ends.** All cases pass; or the cases up to one pass, and this one, whose command is run once
more than theirs, does not, so that what is wrong with it is reported, and the rest is not run. Nothing is remembered
of the case that ends the run. -/
inductive Ends (net : Network W) (t : TableTest) (w : W) : List Case → Except CaseError Unit × TableTest × W → Prop
  | passed {played : List Played} {w₁ : W} (hplays : Plays net t.clients t.patterns t.responses w played w₁) :
      Ends net t w (played.map Played.case) (.ok (), t.recording played, w₁)
  | stopped {played : List Played} {w₁ w₂ : W} {c : Case} {rest : List Case} {outcome : Except ClientError Json}
      {problem : CaseProblem} (hplays : Plays net t.clients t.patterns t.responses w played w₁)
      (hrun : t.clients.run net (c.command (t.responses.after played)) w₁ = (outcome, w₂))
      (hpasses : ¬c.Passes t.patterns outcome) (hfaults : c.Faults t.patterns outcome problem) :
      Ends net t w (played.map Played.case ++ c :: rest) (.error ⟨c.name, problem⟩, t.recording played, w₂)

/-- **A case is run once** from what is remembered, and accepted only with an outcome that it passes with. -/
theorem run_cases (t : TableTest) (net : Network W) (c : Case) (w : W) :
    ∃ outcome w₁, t.clients.run net (c.command t.responses) w = (outcome, w₁)
      ∧ ((c.Passes t.patterns outcome ∧ ∃ value, t.run net c w = (.ok value, t.recording [⟨c, outcome⟩], w₁))
        ∨ ∃ problem, c.Faults t.patterns outcome problem ∧ t.run net c w = (.error ⟨c.name, problem⟩, t, w₁)) := by
  obtain ⟨⟨outcome, w₁⟩, hrun⟩ : ∃ x, t.clients.run net (c.command t.responses) w = x := ⟨_, rfl⟩
  refine ⟨outcome, w₁, hrun, ?_⟩
  have hdecides := c.judge_decides t.patterns outcome
  cases hjudge : c.judge t.patterns outcome with
  | error problem =>
      rw [hjudge] at hdecides
      cases hdecides with
      | rejected hfaults => exact Or.inr ⟨problem, hfaults, by simp only [run, hrun, hjudge]⟩
  | ok value =>
      rw [hjudge] at hdecides
      cases hdecides with
      | accepted hpasses =>
          refine Or.inl ⟨hpasses, value, ?_⟩
          simp only [run, hrun, hjudge, recording, Responses.after, List.foldl_cons, List.foldl_nil, Responses.record,
            Case.data?_of_judge hjudge]
          split <;> rfl

/-- **A single case passes or not as it should**, and what is reported is its fault. -/
theorem run_decides (t : TableTest) (net : Network W) (c : Case) (w : W) :
    ((t.run net c w).1.isOk = true ↔ c.Passes t.patterns (t.clients.run net (c.command t.responses) w).1)
      ∧ ∀ problem, (t.run net c w).1 = .error ⟨c.name, problem⟩
        ↔ c.Faults t.patterns (t.clients.run net (c.command t.responses) w).1 problem := by
  obtain ⟨outcome, w₁, hrun, ⟨hpasses, value, heq⟩ | ⟨problem, hfaults, heq⟩⟩ := t.run_cases net c w
  · rw [heq, hrun]
    exact ⟨⟨fun _ => hpasses, fun _ => rfl⟩, fun problem => ⟨nofun, fun hfaults => absurd hpasses hfaults.not_passes⟩⟩
  · rw [heq, hrun]
    refine ⟨⟨nofun, fun hpasses => absurd hpasses hfaults.not_passes⟩, fun problem' => ⟨?_, fun hfaults' => ?_⟩⟩
    · rintro h
      cases h
      exact hfaults
    · rw [Except.error.inj (hfaults.reported.symm.trans hfaults'.reported)]

theorem Ends.cons {c : Case} {outcome : Except ClientError Json} {w₁ : W}
    {result : Except CaseError Unit × TableTest × W}
    (hrun : t.clients.run net (c.command t.responses) w = (outcome, w₁)) (hpasses : c.Passes t.patterns outcome)
    (h : (t.recording [⟨c, outcome⟩]).Ends net w₁ cases result) : t.Ends net w (c :: cases) result := by
  cases h with
  | passed hplays => exact .passed (.cons hrun hpasses hplays)
  | stopped hplays hrun' hpasses' hfaults => exact .stopped (.cons hrun hpasses hplays) hrun' hpasses' hfaults

/-- **A run of cases ends as it should.** -/
theorem runAll_ends (t : TableTest) (net : Network W) (cases : List Case) (w : W) :
    t.Ends net w cases (t.runAll net cases w) := by
  induction cases generalizing t w with
  | nil => exact .passed .nil
  | cons c cases ih =>
      obtain ⟨outcome, w₁, hrun, ⟨hpasses, value, heq⟩ | ⟨problem, hfaults, heq⟩⟩ := t.run_cases net c w
      · simp only [runAll, heq]
        exact .cons hrun hpasses (ih _ w₁)
      · simp only [runAll, heq]
        exact .stopped .nil hrun hfaults.not_passes hfaults

/-- **Table tests accept and reject what they should.** A single case is accepted just if it passes with the outcome
of its command, and otherwise the fault of the outcome is reported. A run of cases plays them in order up to the first
that does not pass, and what is remembered then is, under each name, the data of the last case of this name that passed
and was to succeed, or else what was remembered before. -/
theorem runAll_decides (t : TableTest) (net : Network W) (cases : List Case) (w : W) :
    (∀ c w,
      ((t.run net c w).1.isOk = true ↔ c.Passes t.patterns (t.clients.run net (c.command t.responses) w).1)
        ∧ ∀ problem, (t.run net c w).1 = .error ⟨c.name, problem⟩
          ↔ c.Faults t.patterns (t.clients.run net (c.command t.responses) w).1 problem)
      ∧ t.Ends net w cases (t.runAll net cases w)
      ∧ ∀ played name, (t.recording played).responses.get? name =
        (played.reverse.findSome? fun p => if p.case.name = name then p.data? else none).or (t.responses.get? name) :=
  ⟨t.run_decides net, t.runAll_ends net cases w, t.responses.get?_after⟩

end TableTest

end ResourceTree
