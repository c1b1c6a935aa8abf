import ResourceTree.Resource.Schema

/-! # The kinds of resources that a blueprint may name

A handful of kinds that between them use every hook a kind may have: validation, refusal of a method, values
taken from the path, merging, redaction, pages, a change of identity, and JSON forms that fail or are `null`.
Each comes with the hooks that a trace shows. -/

namespace ResourceTree.Blueprint

/-- The hooks of a kind that a trace may show. -/
inductive Stage where
  | bind
  | patch
  | render
  | page
  deriving DecidableEq, Repr

/-- A kind with the hooks that a trace shows. -/
structure NamedKind where
  kind : Kind Record
  traced : List Stage

/-- A text field. -/
def textField (name : String) : Field := ⟨name, .text, false, false⟩

/-- Artists have a name, which a partial update replaces if it has one. -/
def artist : NamedKind where
  kind := { Record.ofSchema "artist" ⟨"Artist", [textField "name"]⟩ with
    patch := fun r p => .ok (if p.text "name" = "" then r else r.takeField p "name") }
  traced := [.patch]

/-- Albums have a title, which only a partial update may leave out, and a year. -/
def album : NamedKind where
  kind := { Record.ofSchema "album" ⟨"Album", [textField "title", ⟨"year", .word, false, false⟩]⟩ with
    bind := fun ctx r =>
      if r.text "title" = "" ∧ ctx.method ≠ .patch then
        .error (.invalidRequest "missing required 'title' field")
      else .ok r
    patch := fun r p =>
      let r := if p.text "title" = "" then r else r.takeField p "title"
      let year := ((p.field? "year").bind Json.nat?).getD 0
      .ok (if year = 0 then r else r.takeField p "year") }
  traced := [.bind, .patch]

/-- What songs are made of. -/
def songSchema : Schema := ⟨"Song", [textField "title"]⟩

/-- Songs have a title and no hooks. -/
def song : NamedKind := ⟨Record.ofSchema "song" songSchema, []⟩

/-- Notes have a text and a secret, which no answer shows. Some texts cannot be rendered, some are refused. -/
def note : NamedKind where
  kind := { Record.ofSchema "note" ⟨"Note", [textField "text", ⟨"secret", .text, true, true⟩]⟩ with
    patch := fun r p => if p.text "text" = "refused" then .error .forbidden else .ok (r.takeField p "text")
    render := fun _ r =>
      if r.text "text" = "unrenderable" then .error (.custom 418 "Teapot" (some "short and stout"))
      else .ok (r.setField "secret" .null)
    html := fun _ r =>
      if r.text "text" = "" then none else some ("<p>" ++ r.text "text" ++ "</p>") }
  traced := [.patch, .render, .page]

/-- Events have a name and a password, which a new one needs, no answer shows and nothing replaces. -/
def event : NamedKind where
  kind := { Record.ofSchema "event" ⟨"Event", [textField "name", ⟨"password", .text, true, true⟩]⟩ with
    bind := fun ctx r =>
      if ctx.method = .put then .error (.methodNotAllowed "PUT not allowed")
      else if ctx.method = .post ∧ r.text "password" = "" then
        .error (.invalidRequest "missing required 'password' field")
      else .ok r
    render := fun _ r => .ok (r.setField "password" .null) }
  traced := [.bind, .render]

/-- Invites belong to the event in whose path they are created, and may have an answer. -/
def invite : NamedKind where
  kind :=
    { Record.ofSchema "invite"
        ⟨"Invite", [textField "name", textField "event_id", ⟨"rsvp", .flag, true, false⟩]⟩ with
      bind := fun ctx r =>
        .ok (if ctx.method = .post then r.setField "event_id" (.str ((ctx.id? "events").getD "")) else r) }
  traced := [.bind]

/-- Swaps try to change their identity, when they are bound and when they are merged. -/
def swap : NamedKind where
  kind := { Record.ofSchema "swap" ⟨"Swap", [textField "rebind", textField "text"]⟩ with
    bind := fun _ r =>
      .ok (if r.text "rebind" = "" then r else { r with identity := .withId (r.text "rebind") })
    patch := fun _ p => .ok p }
  traced := [.bind, .patch]

/-- Fragile resources have no JSON form while their text is `boom`. -/
def fragile : NamedKind where
  kind :=
    let schema : Schema := ⟨"Fragile", [textField "text"]⟩
    { Record.ofSchema "fragile" schema with
      encode := fun r => if r.text "text" = "boom" then .error "cannot serialize boom" else .ok (schema.encode r)
      patch := fun r p => .ok (r.takeField p "text") }
  traced := [.patch]

/-- Ghosts are songs whose JSON form is `null` while they have no ID. -/
def ghost : NamedKind where
  kind := { Record.ofSchema "ghost" songSchema with
    encode := fun r => .ok (if r.identity.id = "" then .null else songSchema.encode r) }
  traced := []

/-- Resources without a schema. -/
def schemaless : NamedKind := ⟨{ Record.schemaless with name := "any" }, []⟩

/-- The kinds with a schema. -/
def kinds : List NamedKind := [artist, album, song, note, event, invite, swap, fragile, ghost]

/-- The kind of a name; any other name means resources without a schema. -/
def kindNamed (name : String) : NamedKind :=
  (kinds.find? fun k => k.kind.name == name).getD schemaless

end ResourceTree.Blueprint
