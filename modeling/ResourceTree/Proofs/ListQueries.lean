import ResourceTree.Proofs.ClientServerAgreement
import ResourceTree.Proofs.FormQueries
import ResourceTree.Proofs.RenderedIds
import ResourceTree.Proofs.SentRequests

/-! # The queries of list commands

The arguments of a list command assign values to keys. What they assign is what the server finds in the query of the
request, whatever characters it is made of, and of several arguments with the same key the last one counts; the path
is that of the collection, whatever the arguments are. An argument that assigns nothing is refused before anything is
sent (`list_queries_arrive`). -/

namespace ResourceTree

variable {R W : Type}

/-! ## Arguments -/

/-- **An argument assigns a value to a key**: it ends with the value behind its first `=`, and the key is what stands
before it. -/
def Assigns (arg key value : String) : Prop := arg = key ++ "=" ++ value ∧ '=' ∉ key.toList

/-- **What arguments give for a key**: the value that the last argument with this key assigns, or nothing if there is
none. -/
def Gives (args : List String) (key : String) : Option String → Prop
  | some value => ∃ before arg after, args = before ++ arg :: after ∧ Assigns arg key value
      ∧ ∀ later ∈ after, ¬∃ other, Assigns later key other
  | none => ∀ arg ∈ args, ¬∃ value, Assigns arg key value

variable {arg key value : String} {args : List String}

theorem exists_assigns (h : '=' ∈ arg.toList) : ∃ key value, Assigns arg key value := by
  obtain ⟨before, after, harg, hbefore⟩ := List.eq_append_cons_of_mem h
  refine ⟨String.ofList before, String.ofList after, String.toList_inj.mp ?_, by rwa [String.toList_ofList]⟩
  simp [harg]

namespace ClientMap

/-- An argument that assigns a value is read as that pair. -/
theorem queryPair_of_assigns (h : Assigns arg key value) : queryPair arg = .ok (key, value) := by
  obtain ⟨rfl, hkey⟩ := h
  have htext : (key ++ "=" ++ value).toList = key.toList ++ '=' :: value.toList := by simp
  have hcut : Text.cut '=' (key ++ "=" ++ value) = (key, some value) := by
    rw [Text.cut, htext, Text.cutAt_append_cons hkey]
    simp
  rw [queryPair, hcut]

theorem queryPair_of_not_mem (h : '=' ∉ arg.toList) :
    queryPair arg = .error (.invalidCommand ("query argument '" ++ arg ++ "' is not key=value")) := by
  have hcut : Text.cut '=' arg = (arg, none) := by
    rw [Text.cut, Text.cutAt_of_not_mem h]
    simp
  rw [queryPair, hcut]

end ClientMap

/-- What an argument assigns is determined. -/
theorem Assigns.unique {key' value' : String} (h : Assigns arg key value) (h' : Assigns arg key' value') :
    key = key' ∧ value = value' := by
  have hpair := (ClientMap.queryPair_of_assigns h).symm.trans (ClientMap.queryPair_of_assigns h')
  exact Prod.mk.inj (Except.ok.inj hpair)

/-- So is what arguments give for a key: of two that assign a value to it, the earlier one is not the last. -/
theorem Gives.unique {given given' : Option String} (h : Gives args key given) (h' : Gives args key given') :
    given = given' := by
  have hnone {value : String} (hnone : Gives args key none) (hsome : Gives args key (some value)) : False := by
    obtain ⟨before, arg, after, rfl, harg, -⟩ := hsome
    exact hnone arg (List.mem_append_right before List.mem_cons_self) ⟨value, harg⟩
  cases given with
  | none =>
      cases given' with
      | none => rfl
      | some value' => exact (hnone h h').elim
  | some value =>
      cases given' with
      | none => exact (hnone h' h).elim
      | some value' =>
          obtain ⟨before, arg, after, rfl, harg, hafter⟩ := h
          obtain ⟨before', arg', after', hcut, harg', hafter'⟩ := h'
          obtain ⟨between, -, hrest⟩ | ⟨between, -, hrest⟩ := List.append_eq_append_iff.mp hcut
          · cases between with
            | nil =>
                obtain ⟨rfl, -⟩ := List.cons.inj hrest
                exact congrArg some (harg.unique harg').2
            | cons first between =>
                obtain ⟨-, rfl⟩ := List.cons.inj hrest
                exact (hafter arg' (List.mem_append_right between List.mem_cons_self) ⟨value', harg'⟩).elim
          · cases between with
            | nil =>
                obtain ⟨rfl, -⟩ := List.cons.inj hrest
                exact congrArg some (harg.unique harg').2
            | cons first between =>
                obtain ⟨-, rfl⟩ := List.cons.inj hrest
                exact (hafter' arg (List.mem_append_right between List.mem_cons_self) ⟨value, harg⟩).elim

namespace ClientMap

/-- **Arguments that all have an `=`** are read as the pairs that they assign, by induction on them. -/
theorem mapM_queryPair_of_mem (h : ∀ arg ∈ args, '=' ∈ arg.toList) :
    ∃ pairs, args.mapM queryPair = .ok pairs ∧ List.Forall₂ (fun arg pair => Assigns arg pair.1 pair.2) args pairs := by
  induction args with
  | nil => exact ⟨[], rfl, .nil⟩
  | cons arg args ih =>
      obtain ⟨key, value, harg⟩ := exists_assigns (h arg List.mem_cons_self)
      obtain ⟨pairs, hpairs, hassigns⟩ := ih fun later hlater => h later (List.mem_cons_of_mem arg hlater)
      refine ⟨(key, value) :: pairs, ?_, .cons harg hassigns⟩
      rw [List.mapM_cons, queryPair_of_assigns harg, hpairs]
      rfl

/-- **The first argument without an `=`** decides that arguments are not read. -/
theorem mapM_queryPair_of_first {before after : List String} (hbefore : ∀ arg ∈ before, '=' ∈ arg.toList)
    (harg : '=' ∉ arg.toList) :
    (before ++ arg :: after).mapM queryPair
      = .error (.invalidCommand ("query argument '" ++ arg ++ "' is not key=value")) := by
  induction before with
  | nil =>
      rw [List.nil_append, List.mapM_cons, queryPair_of_not_mem harg]
      rfl
  | cons earlier before ih =>
      obtain ⟨key, value, hearlier⟩ := exists_assigns (hbefore earlier List.mem_cons_self)
      rw [List.cons_append, List.mapM_cons, queryPair_of_assigns hearlier,
        ih fun other hother => hbefore other (List.mem_cons_of_mem earlier hother)]
      rfl

end ClientMap

/-- **Looking up a key** in the pairs that arguments assign finds what the arguments give, by induction on them. -/
theorem gives_lookup {pairs : List (String × String)}
    (h : List.Forall₂ (fun arg pair => Assigns arg pair.1 pair.2) args pairs) (key : String) :
    Gives args key (Form.lookup pairs key) := by
  induction h with
  | nil => exact fun arg harg => by cases harg
  | @cons arg pair args pairs harg hrest ih =>
      have hcons : Form.lookup (pair :: pairs) key = (Form.lookup pairs key).or (Form.lookup [pair] key) :=
        Form.lookup_append [pair] pairs key
      rw [hcons]
      cases hlater : Form.lookup pairs key with
      | some value =>
          rw [hlater] at ih
          obtain ⟨before, last, after, rfl, hlast, hafter⟩ := ih
          exact ⟨arg :: before, last, after, rfl, hlast, hafter⟩
      | none =>
          rw [hlater] at ih
          rw [Option.none_or]
          by_cases hkey : pair.1 = key
          · subst hkey
            have hfound : Form.lookup [pair] pair.1 = some pair.2 := by simp [Form.lookup]
            rw [hfound]
            exact ⟨[], arg, args, rfl, harg, ih⟩
          · rw [Form.lookup_eq_none_iff.mpr fun other hother => by rwa [List.mem_singleton.mp hother]]
            refine List.forall_mem_cons.mpr ⟨?_, ih⟩
            rintro ⟨value, hvalue⟩
            exact hkey (harg.unique hvalue).1

/-! ## Requests -/

/-- **A request lists a collection as arguments say**: it goes to the path of the collection, and whatever has been
found out about the request on its way, its context has for every key what the arguments give. -/
structure Request.Lists (request : Request) (path : String) (args : List String) : Prop where
  method : request.method = .get
  path : request.path = path
  query : ∀ {R : Type} (i : Inflight R), i.request = request → ∀ key, Gives args key (i.context.query? key)

/-- Pairs that are added to a URL without a query of its own are the query of the request. -/
theorem Call.lists_request {call : Call} {u : Url} {pairs : List (String × String)} (hmethod : call.method = .get)
    (hquery : u.query = none) (hassigns : List.Forall₂ (fun arg pair => Assigns arg pair.1 pair.2) args pairs) :
    (call.request (u.withPairs pairs)).Lists u.path args where
  method := hmethod
  path := rfl
  query := by
    rintro R ⟨request, params, resolved⟩ rfl key
    have hdecode : Form.decode ((u.withPairs pairs).query.getD "") = pairs := by
      rw [Url.decode_withPairs, hquery]
      rfl
    have hcontext : (⟨call.request (u.withPairs pairs), params, resolved⟩ : Inflight R).context.query? key
        = Form.lookup (Form.decode ((u.withPairs pairs).query.getD "")) key := rfl
    rw [hcontext, hdecode]
    exact gives_lookup hassigns key

namespace ClientMap

/-- **List queries arrive as they were given.** Take a list command for a resource of a tree. If all of its arguments
have an `=`, one request is sent, to the URL of the collection with a query added to it. In the context of the request
each key has the value of the last argument whose text before its first `=` is the key, and no other key has any;
the path is that of the collection's URL, whatever the arguments are. On a server at a plain address it is the path of
the collection itself. If an argument has no `=`, the command is refused because of the first one. -/
theorem list_queries_arrive {n : Node R} {address : String} {m : ClientMap} {client : Client Record} {c : Command}
    (hclients : ofNode address n = .ok m) (hget : m.get? c.resource = some client) (hverb : c.verb = .list) :
    ((∀ arg ∈ c.args, '=' ∈ arg.toList) →
      (∀ text u, client.url c.parents none = .ok text → Url.parse? text = some u → u.isWeb = true → u.query = none →
        ∃ pairs request, m.SendsOnly c (u.withPairs pairs) request ∧ request.Lists u.path c.args)
      ∧ ∀ (a : ServerAddress) path, Client.trimAddress address = a.text →
        (∀ s ∈ client.path.segments, IsPlainBase s.base) → (∀ id ∈ c.parents, IsProperId id) →
        client.path.render c.parents none = .ok path →
          ∃ pairs request, m.SendsOnly c ((a.url path).withPairs pairs) request ∧ request.Lists path c.args)
    ∧ ∀ before first after, c.args = before ++ first :: after → (∀ arg ∈ before, '=' ∈ arg.toList) →
      '=' ∉ first.toList →
        m.Refuses c (.invalidCommand ("query argument '" ++ first ++ "' is not key=value")) := by
  obtain ⟨hkind, haddress⟩ := client_of_get? hclients hget
  have herrand : c.errand = c.args.mapM queryPair >>= fun pairs => pure (.list c.parents pairs) := by
    rw [Command.errand, hverb]
  refine ⟨fun hargs => ?_, fun before first after hcut hbefore hfirst => ?_⟩
  · obtain ⟨pairs, hpairs, hassigns⟩ := mapM_queryPair_of_mem hargs
    rw [hpairs] at herrand
    have hsends : ∀ text u, client.url c.parents none = .ok text → Url.parse? text = some u → u.isWeb = true →
        u.query = none → ∃ pairs request, m.SendsOnly c (u.withPairs pairs) request ∧ request.Lists u.path c.args := by
      intro text u htext hparse hweb hquery
      have hcall : (Errand.list c.parents pairs).call client
          = .ok { method := .get, address := text, pairs := some pairs } := by
        rw [Errand.call, Errand.parents, Errand.id?, htext]
        rfl
      have hurl : Call.url? { method := .get, address := text, pairs := some pairs } = some (u.withPairs pairs) := by
        rw [Call.url?, hparse]
        rfl
      exact ⟨pairs, _, sendsOnly_of_call hget hkind herrand hcall hurl hweb, Call.lists_request rfl hquery hassigns⟩
    refine ⟨hsends, fun a path hserver hbases hids hpath => ?_⟩
    have hids' : ∀ id ∈ c.parents ++ (none : Option String).toList, IsProperId id := by
      rwa [Option.toList_none, List.append_nil]
    have htext : client.url c.parents none = .ok (a.text ++ path) := by
      rw [Client.url, hpath, haddress, hserver]
    have hrendered : absolutePath (client.path.renderedParts c.parents none) = path := by
      have hlength := RoutePath.length_of_render hpath
      exact Except.ok.inj ((RoutePath.render_eq hlength none).symm.trans hpath)
    have hparse : Url.parse? (a.text ++ path) = some (a.url path) := by
      rw [← hrendered]
      exact a.parse?_path (RoutePath.cuttable_renderedParts _ fun id hid => (hids' id hid).1)
        (RoutePath.steady_renderedParts hbases hids')
    exact hsends _ _ htext hparse (a.url_isWeb path) rfl
  · refine refuses_of_no_errand hget ?_
    rw [herrand, hcut, mapM_queryPair_of_first hbefore hfirst]
    rfl

/-- A list command whose arguments repeat a key and use reserved signs, and one that forgets an `=`. -/
theorem list_queries_arrive_library :
    (∃ u request, Library.clients.SendsOnly ⟨.list, "albums", ["a 1"], ["title=A B", "=x", "title=a=b&c+%20é", "by="]⟩
        u request
      ∧ request.path = "/artists/a%201/albums"
      ∧ ∀ i : Inflight Record, i.request = request → i.context.query? "title" = some "a=b&c+%20é")
    ∧ Library.clients.Refuses ⟨.list, "albums", [], ["title=A", "year", "by"]⟩
      (.invalidCommand "query argument 'year' is not key=value") := by
  have hclient : Library.clients.get? "albums" = some Library.albumClient := rfl
  have hread := (list_queries_arrive (c := ⟨.list, "albums", ["a 1"], ["title=A B", "=x", "title=a=b&c+%20é", "by="]⟩)
    Library.clients_tree hclient rfl).1 (by decide)
  have hrefused := (list_queries_arrive (c := ⟨.list, "albums", [], ["title=A", "year", "by"]⟩)
    Library.clients_tree hclient rfl).2 ["title=A"] "year" ["by"] rfl (by decide) (by decide)
  obtain ⟨pairs, request, hsends, hlists⟩ := hread.2 Library.address "/artists/a%201/albums" (by decide +kernel)
    (by decide +kernel) (by decide) (by decide +kernel)
  have hlast : Gives ["title=A B", "=x", "title=a=b&c+%20é", "by="] "title" (some "a=b&c+%20é") := by
    refine ⟨["title=A B", "=x"], _, ["by="], rfl, ⟨by decide, by decide⟩, fun later hlater => ?_⟩
    rintro ⟨value, hvalue⟩
    rw [List.mem_singleton.mp hlater] at hvalue
    have hby : Assigns "by=" "by" "" := ⟨by decide, by decide⟩
    exact absurd (hby.unique hvalue).1 (by decide)
  exact ⟨⟨_, request, hsends, hlists.path, fun i hi => (hlists.query i hi "title").unique hlast⟩, hrefused⟩

end ClientMap

end ResourceTree
