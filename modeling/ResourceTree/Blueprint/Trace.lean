import ResourceTree.Blueprint.Tree

/-! # Traces

The events of a request as lines of text: only those hooks that the kinds of the tree show, and no call on a
storage that is not observed. -/

namespace ResourceTree.Blueprint

/-- Words with a blank between two of them. -/
def line (words : List String) : String := String.intercalate " " words

/-- The line of a hook of a kind, if the kind shows it. -/
def stageLine (doc : Json) (stage : Stage) (word : String) : Option String :=
  let named := kindNamed (doc.textAt "type")
  if named.traced.contains stage then some (line [word, named.kind.name]) else none

/-- The line of a storage call. -/
def storeLine (doc : Json) (c : StoreCall) : Option String :=
  if isObserved doc then
    some <| line <| [callName c, doc.textAt "name"] ++
      match c with
      | .get id | .set id | .delete id => [id]
      | .list => []
  else none

/-- The line of an event on the node of a description. -/
def eventLine (doc : Json) : Event → Option String
  | .store _ c => storeLine doc c
  | .bind _ => stageLine doc .bind "bind"
  | .patch _ => stageLine doc .patch "patch"
  | .render _ => stageLine doc .render "render"
  | .page _ => stageLine doc .page "html"
  | .filter _ => some "filter"
  | .wrap _ id => some (line ["wrap", id])
  | .wrapList _ count => some (line ["wrap_list", Nat.repr count])
  | .renderView _ => some "render view"
  | .pageView _ => some "html view"
  | .save _ method id => some (line ["on_save", method.token, id])
  | .beforeDelete _ id => some (line ["before_delete", id])
  | .afterDelete _ id => some (line ["after_delete", id])
  | .guard _ tag id => some (line ["guard", tag, id])
  | .enter _ tag => some (tag ++ ">")
  | .leave _ tag status => some (line ["<" ++ tag, Nat.repr status])
  | .handler _ tag => some (line ["handler", tag])

/-- The node on which something happened. -/
def eventNode : Event → NodeKey
  | .store node _ | .bind node | .patch node | .render node | .page node | .filter node | .wrap node _
  | .wrapList node _ | .renderView node | .pageView node | .save node _ _ | .beforeDelete node _
  | .afterDelete node _ | .guard node _ _ | .enter node _ | .leave node _ _ | .handler node _ => node

/-- The lines of the events of a request in a tree. -/
def trace (doc : Json) (events : List Event) : List String :=
  let places := nodes doc
  events.filterMap fun e => (places.lookup (eventNode e)).bind fun description => eventLine description e

end ResourceTree.Blueprint
