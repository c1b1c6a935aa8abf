import Mathlib.Data.List.TakeWhile
import ResourceTree.Proofs.Errands
import ResourceTree.Proofs.PatternParts

/-! # What clients report of an answer

An answer of another status than the expected one is reported with a text: the status of the envelope in its body, or
else the body without the blanks at its ends. `Json.Written.Reports` says which written values hold an envelope: objects
with a text under `status`, and besides them arrays of the envelope's fields. `Exchange.reported_texts` says that the
text is always one of the two, and that the status and the body are passed on as they are. -/

namespace ResourceTree

/-! ## Trimmed texts -/

namespace Text

variable {p : Char → Bool} {cs : List Char}

/-- **A text is cut out of a body** by taking the blanks off its ends. -/
structure Trims (body text : String) : Prop where
  /-- Nothing but blanks has been taken off. -/
  blanks : ∃ before after : List Char, body.toList = before ++ text.toList ++ after ∧
    ∀ c ∈ before ++ after, isBlank c = true
  /-- No blank is left at the beginning. -/
  first : ∀ c, text.toList.head? = some c → isBlank c = false
  /-- No blank is left at the end. -/
  last : ∀ c, text.toList.getLast? = some c → isBlank c = false

/-- What is taken off the end are characters of the class. -/
theorem exists_trimEnd_append (p : Char → Bool) (cs : List Char) :
    ∃ after, cs = trimEnd p cs ++ after ∧ ∀ c ∈ after, p c = true := by
  refine ⟨(cs.reverse.takeWhile p).reverse, ?_, fun c hc => ?_⟩
  · rw [trimEnd, ← List.reverse_append, List.takeWhile_append_dropWhile, List.reverse_reverse]
  · exact List.mem_takeWhile_imp (List.mem_reverse.mp hc)

theorem trims_trimmed (body : String) : Trims body (trimmed body) := by
  obtain ⟨after, hafter, hblank⟩ := exists_trimEnd_append isBlank (body.toList.dropWhile isBlank)
  have htext : (trimmed body).toList = trimEnd isBlank (body.toList.dropWhile isBlank) := String.toList_ofList
  refine ⟨⟨body.toList.takeWhile isBlank, after, ?_, fun c hc => ?_⟩, fun c hc => ?_, fun c hc => ?_⟩
  · rw [htext, List.append_assoc, ← hafter, List.takeWhile_append_dropWhile]
  · rcases List.mem_append.mp hc with hc | hc
    · exact List.mem_takeWhile_imp hc
    · exact hblank c hc
  · -- the first character is the first one that is no blank
    rw [htext] at hc
    have hhead : (body.toList.dropWhile isBlank).head? = some c := by
      rw [hafter, List.head?_append, hc, Option.some_or]
    have hnot := List.head?_dropWhile_not isBlank body.toList
    rw [hhead] at hnot
    simpa using hnot
  · exact getLast?_trimEnd (htext ▸ hc)

end Text

/-! ## Envelopes -/

namespace Json.Written

/-- The values of the members under a key. -/
def under (members : List (Option String × Written)) (key : String) : List Written :=
  (members.filter fun m => m.1 == some key).map Prod.snd

/-- What stands for the detail of an error: nothing, `null` or a text. -/
inductive IsDetail : List Written → Prop
  | absent : IsDetail []
  | null : IsDetail [.null]
  | text (detail : String) : IsDetail [.str (some detail)]

/-- **A written value reports a status**: it is an object with this text as the only member under `status`, and with
at most one member under `error`, which is `null` or a text; or else it is an array of the same values. -/
inductive Reports : Written → String → Prop
  /-- No key of the object has half a surrogate pair; what the other members hold does not matter. -/
  | object {members : List (Option String × Written)} {status : String} (hkeys : ∀ m ∈ members, m.1 ≠ none)
      (hstatus : under members "status" = [.str (some status)]) (hdetail : IsDetail (under members "error")) :
      Reports (.obj members) status
  | array {detail : List Written} (status : String) (hdetail : IsDetail detail) :
      Reports (.arr (.str (some status) :: detail)) status

end Json.Written

namespace ErrorEnvelope

open Json Json.Written

variable {members : List (Option String × Written)} {named : List (String × Written)} {key status : String}
  {detail : Option String} {w value : Written}

/-- Members with their names, as they are written. -/
def written (named : List (String × Written)) : List (Option String × Written) :=
  named.map fun m => (some m.1, m.2)

theorem mapM_written (named : List (String × Written)) :
    ((written named).mapM fun (key, value) => key.map fun key => (key, value)) = some named := by
  induction named with
  | nil => rfl
  | cons m named ih =>
      rw [written, List.map_cons, List.mapM_cons, ← written, ih]
      rfl

/-- The keys of members are names if all of them are texts. -/
theorem exists_written (hkeys : ∀ m ∈ members, m.1 ≠ none) : ∃ named, members = written named := by
  induction members with
  | nil => exact ⟨[], rfl⟩
  | cons m members ih =>
      obtain ⟨named, rfl⟩ := ih fun n hn => hkeys n (List.mem_cons_of_mem m hn)
      obtain ⟨key, hkey⟩ := Option.ne_none_iff_exists'.mp (hkeys m List.mem_cons_self)
      refine ⟨(key, m.2) :: named, ?_⟩
      rw [written, written, List.map_cons, ← hkey]

theorem keys_of_mapM (h : (members.mapM fun (key, value) => key.map fun key => (key, value)) = some named) :
    ∀ m ∈ members, m.1 ≠ none := by
  induction members generalizing named with
  | nil => exact fun m hm => absurd hm List.not_mem_nil
  | cons m members ih =>
      rw [List.mapM_cons] at h
      obtain ⟨n, hn, h⟩ := Option.bind_eq_some_iff.mp h
      obtain ⟨rest, hrest, -⟩ := Option.bind_eq_some_iff.mp h
      refine List.forall_mem_cons.mpr ⟨fun hnone => ?_, ih hrest⟩
      obtain ⟨key, value⟩ := m
      cases hnone
      cases hn

/-- A member that occurs once at most. -/
theorem member?_eq_some_iff {found : Option Written} :
    member? named key = some found ↔ under (written named) key = found.toList := by
  have hunder : under (written named) key = (named.filter fun m => m.1 == key).map Prod.snd := by
    rw [under, written, List.filter_map, List.map_map]
    rfl
  rw [member?, hunder]
  generalize (named.filter fun m => m.1 == key) = among
  match among with
  | [] => cases found <;> simp
  | [m] => cases found <;> simp
  | m :: n :: rest => cases found <;> simp

theorem stringOf?_eq_some_iff : stringOf? w = some status ↔ w = .str (some status) := by
  cases w <;> simp [stringOf?]

theorem optionalOf?_eq_some : (∃ detail, optionalOf? w = some detail) ↔ IsDetail [w] := by
  constructor
  · rintro ⟨detail, h⟩
    cases w with
    | null => exact .null
    | str s =>
        obtain ⟨text, rfl, -⟩ := Option.map_eq_some_iff.mp h
        exact .text text
    | _ => cases h
  · intro h
    cases h with
    | null => exact ⟨none, rfl⟩
    | text detail => exact ⟨some detail, rfl⟩

/-- **What an envelope is read from.** -/
theorem ofWritten?_iff : (∃ detail, ofWritten? w = some ⟨status, detail⟩) ↔ w.Reports status := by
  constructor
  · rintro ⟨detail, h⟩
    rw [ofWritten?.eq_def] at h
    split at h
    · next members =>
        obtain ⟨named, hnamed, h⟩ := Option.bind_eq_some_iff.mp h
        obtain ⟨found, hfound, h⟩ := Option.bind_eq_some_iff.mp h
        obtain ⟨value, hvalue, h⟩ := Option.bind_eq_some_iff.mp h
        obtain ⟨text, htext, h⟩ := Option.bind_eq_some_iff.mp h
        obtain ⟨error, herror, h⟩ := Option.bind_eq_some_iff.mp h
        obtain ⟨detail, hdetail, h⟩ := Option.bind_eq_some_iff.mp h
        cases h
        -- all keys are texts, so the members are those that have been read
        have hkeys := keys_of_mapM hnamed
        obtain ⟨given, rfl⟩ := exists_written hkeys
        rw [mapM_written] at hnamed
        cases hnamed
        rw [member?_eq_some_iff] at hfound herror
        rw [hvalue, stringOf?_eq_some_iff.mp htext] at hfound
        refine .object hkeys hfound ?_
        rw [herror]
        cases error with
        | none => exact .absent
        | some value => exact optionalOf?_eq_some.mp ⟨_, hdetail⟩
    · next value =>
        obtain ⟨given, hgiven, h⟩ := Option.bind_eq_some_iff.mp h
        cases h
        rw [stringOf?_eq_some_iff.mp hgiven]
        exact .array status .absent
    · next value error =>
        obtain ⟨given, hgiven, h⟩ := Option.bind_eq_some_iff.mp h
        obtain ⟨detail, hdetail, h⟩ := Option.bind_eq_some_iff.mp h
        cases h
        rw [stringOf?_eq_some_iff.mp hgiven]
        exact .array status (optionalOf?_eq_some.mp ⟨_, hdetail⟩)
    · cases h
  · intro h
    cases h with
    | @object members _ hkeys hstatus hdetail =>
        obtain ⟨named, rfl⟩ := exists_written hkeys
        have hfound : member? named "status" = some (some (.str (some status))) := member?_eq_some_iff.mpr hstatus
        obtain ⟨error, herror, detail, hdetail⟩ : ∃ error, member? named "error" = some error ∧
            ∃ detail, (error.map optionalOf?).getD (some none) = some detail := by
          simp only [member?_eq_some_iff]
          generalize under (written named) "error" = details at hdetail
          cases hdetail with
          | absent => exact ⟨none, rfl, none, rfl⟩
          | null => exact ⟨some .null, rfl, none, rfl⟩
          | text detail => exact ⟨some (.str (some detail)), rfl, some detail, rfl⟩
        refine ⟨detail, ?_⟩
        rw [ofWritten?, mapM_written]
        simp only [Option.bind_eq_bind, Option.bind_some, hfound, stringOf?, herror, hdetail]
        rfl
    | @array details _ hdetail =>
        cases hdetail with
        | absent => exact ⟨none, rfl⟩
        | null => exact ⟨none, rfl⟩
        | text detail => exact ⟨some detail, rfl⟩

end ErrorEnvelope

/-! ## Unexpected answers -/

/-- A body is a JSON text that reports a status. -/
def ReportsStatus (body status : String) : Prop := ∃ w, Json.written? body = some w ∧ w.Reports status

namespace ClientError

variable {body status : String}

/-- The text of an answer is the status that its body reports. -/
theorem answerText_of_reports (h : ReportsStatus body status) : answerText body = status := by
  obtain ⟨w, hwritten, hreports⟩ := h
  obtain ⟨detail, henvelope⟩ := ErrorEnvelope.ofWritten?_iff.mpr hreports
  have hparse : ErrorEnvelope.parse? body = some ⟨status, detail⟩ := by
    rw [ErrorEnvelope.parse?, hwritten]
    exact henvelope
  rw [answerText, hparse]

/-- If the body reports none, its text is the body itself. -/
theorem answerText_of_not_reports (h : ∀ status, ¬ReportsStatus body status) : answerText body = Text.trimmed body := by
  have hparse : ErrorEnvelope.parse? body = none := by
    rw [Option.eq_none_iff_forall_ne_some]
    intro envelope henvelope
    obtain ⟨w, hwritten, hread⟩ := Option.bind_eq_some_iff.mp henvelope
    exact h envelope.status ⟨w, hwritten, ErrorEnvelope.ofWritten?_iff.mp ⟨envelope.detail, hread⟩⟩
  rw [answerText, hparse]

end ClientError

namespace Exchange

variable {W α : Type}

/-- **What is reported of an unexpected answer.** If the answer to a call arrives with another status than the expected
one, the call fails with this status, with the body as it is, and with a text: the status that the body reports, as an
object or an array, or else the body without the blanks at its ends. -/
theorem reported_texts {net : Network W} {call : Call} {expected : Nat} {url : String} {received : Received} {w w' : W}
    (decode : String → Except String α) (hsent : send net call w = (.ok (url, received), w'))
    (hstatus : received.status ≠ expected) :
    ∃ text, perform net call expected decode w
        = (.error (.unexpectedResponse received.status text received.body), w') ∧
      (∀ status, ReportsStatus received.body status → text = status) ∧
      ((∀ status, ¬ReportsStatus received.body status) → Text.Trims received.body text) := by
  have hperform : perform net call expected decode w = (.error (.unexpected received.status received.body), w') := by
    rw [perform_of_sent hsent, settle, if_neg hstatus]
  refine ⟨ClientError.answerText received.body, hperform, fun status h => ?_, fun h => ?_⟩
  · exact ClientError.answerText_of_reports h
  · rw [ClientError.answerText_of_not_reports h]
    exact Text.trims_trimmed received.body

end Exchange

namespace Lockers

/-- A network in which every request is answered in the same way. -/
def answering (status : Nat) (body : String) : Network Unit := fun _ _ w => (some (.plain status body), w)

/-- A call for a locker. -/
def call : Call := { method := .get, address := "http://club/lockers/2" }

/-- Where it goes. -/
def url : Url := ⟨"http", "club", none, "/lockers/2", none, none⟩

/-- The answer arrives. -/
theorem send_answering (status : Nat) (body : String) : Exchange.send (answering status body) call () =
    (.ok (url.text, .ofResponse .get (.plain status body)), ()) :=
  Exchange.send_of_answered (by decide +kernel : call.url? = some url) (by decide) rfl

/-- What is read of an answer with the status 423 to such a call. -/
def closed : Received where
  status := 423
  contentType := some "text/plain; charset=utf-8"
  body := "\x7b\"retry\":[1], \"error\":null, \"status\":\"Closed\"\x7d"

theorem send_closed : Exchange.send (answering closed.status closed.body) call () = (.ok (url.text, closed), ()) := by
  have hclosed : Received.ofResponse .get (.plain closed.status closed.body) = closed := by decide +kernel
  rw [send_answering, hclosed]

theorem reports_closed : ReportsStatus closed.body "Closed" := by
  refine ⟨.obj [(some "retry", .arr [.num (some (.whole 1))]), (some "error", .null),
    (some "status", .str (some "Closed"))], rfl, .object ?_ rfl .null⟩
  simp

end Lockers

open Lockers in
/-- Of a locker that is closed, the status in the envelope is reported. -/
theorem Exchange.reported_texts_lockers : perform (answering closed.status closed.body) call 200 Json.decodeText () =
    (.error (.unexpectedResponse 423 "Closed" closed.body), ()) := by
  obtain ⟨text, hperform, hreported, -⟩ := reported_texts Json.decodeText send_closed (by decide : closed.status ≠ 200)
  rw [hperform, hreported "Closed" reports_closed]
  rfl

open Lockers in
/-- An array of an envelope's fields is taken for the envelope, so its text is not the body. -/
theorem Exchange.array_reported :
    perform (answering 410 "[\"Gone\"]") call 200 Json.decodeText () =
      (.error (.unexpectedResponse 410 "Gone" "[\"Gone\"]"), ()) ∧
    (∀ members, Json.written? "[\"Gone\"]" ≠ some (.obj members)) ∧ Text.trimmed "[\"Gone\"]" ≠ "Gone" := by
  have hwritten : Json.written? "[\"Gone\"]" = some (.arr [.str (some "Gone")]) := rfl
  have hreceived : Received.ofResponse .get (.plain 410 "[\"Gone\"]") =
      ⟨410, some "text/plain; charset=utf-8", "[\"Gone\"]"⟩ := by decide +kernel
  have htext : ClientError.answerText "[\"Gone\"]" = "Gone" :=
    ClientError.answerText_of_reports ⟨_, hwritten, .array "Gone" .absent⟩
  refine ⟨?_, fun members h => ?_, by decide +kernel⟩
  · rw [perform_of_sent (send_answering 410 "[\"Gone\"]"), hreceived, settle, if_neg (by decide),
      ClientError.unexpected, htext]
  · rw [hwritten] at h
    cases h

end ResourceTree
