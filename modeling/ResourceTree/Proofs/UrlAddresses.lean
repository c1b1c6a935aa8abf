import Mathlib.Data.List.TakeWhile
import ResourceTree.Client.Basic

/-! # Addresses of the web

An address is good for sending requests if the slash behind it makes it a URL of the web (`Url.serverAt?`). Any other
path that is written behind the address then makes it a URL on the same server: `Url.exists_parse?_of_serverAt?`. -/

namespace ResourceTree

namespace Text

variable {p : Char → Bool} {c : Char}

/-- Characters of a class are taken up to the first one outside of it, whatever stands behind that. -/
theorem takeWhile_append_cons (h : p c = false) (cs rest : List Char) :
    (cs ++ c :: rest).takeWhile p = cs.takeWhile p := by
  induction cs with
  | nil => exact List.takeWhile_cons_of_neg (by simp [h])
  | cons first cs ih => rw [List.cons_append, List.takeWhile_cons, List.takeWhile_cons, ih]

theorem dropWhile_append_cons (h : p c = false) (cs rest : List Char) :
    (cs ++ c :: rest).dropWhile p = cs.dropWhile p ++ c :: rest := by
  induction cs with
  | nil => exact List.dropWhile_cons_of_neg (by simp [h])
  | cons first cs ih =>
      rw [List.cons_append, List.dropWhile_cons, List.dropWhile_cons, ih]
      split <;> rfl

/-- What stands before a character that is not trimmed is not trimmed either. -/
theorem trimEnd_append_cons (h : p c = false) (cs rest : List Char) :
    trimEnd p (cs ++ c :: rest) = cs ++ c :: trimEnd p rest := by
  rw [trimEnd, List.reverse_append, List.reverse_cons, List.append_assoc, List.singleton_append,
    dropWhile_append_cons h]
  simp [trimEnd]

/-- A text is cut where the separator is met first. -/
theorem fst_cutAt (sep : Char) (cs : List Char) : (cutAt sep cs).1 = cs.takeWhile (· != sep) := by
  induction cs with
  | nil => rfl
  | cons c cs ih =>
      rw [cutAt]
      by_cases h : c = sep
      · simp [h]
      · simp [h, ih]

end Text

namespace Url

/-! ## What is read of a host -/

/-- A slash of either kind. -/
def isSlash (c : Char) : Bool := c == '/' || c == '\\'

/-- What stands between the slashes behind a scheme of the web and the path, the query or the fragment. -/
def authority (cs : List Char) : List Char :=
  ((Text.cutAt '?' (Text.cutAt '#' (cs.dropWhile isSlash)).1).1.map fun c => if c = '\\' then '/' else c).takeWhile
    (· != '/')

/-- The host and port in what stands there, behind a user name. -/
def located? (scheme : String) (authority : List Char) : Option (String × Option Nat) :=
  hostAndPort? scheme (((Text.splitOn '@' authority).getLast?).getD [])

/-- The server of a URL: what is left of it without its path, query and fragment. -/
def server (u : Url) : Url := { u with path := "/", query := none, fragment := none }

variable {scheme : String} {cs rest : List Char} {u : Url}

theorem scheme_of_afterScheme? (h : afterScheme? scheme cs = some u) : u.scheme = scheme := by
  simp only [afterScheme?] at h
  split at h
  · obtain ⟨_, -, h⟩ := Option.bind_eq_some_iff.mp h
    obtain ⟨_, -, h⟩ := Option.bind_eq_some_iff.mp h
    cases h
    rfl
  · split at h
    · obtain ⟨_, -, h⟩ := Option.bind_eq_some_iff.mp h
      obtain ⟨_, -, h⟩ := Option.bind_eq_some_iff.mp h
      cases h
      rfl
    · cases h

/-- **The server of a URL** is read behind its scheme, up to the path. -/
theorem map_server_afterScheme? (hspecial : (hostSchemes.lookup scheme).isSome = true) (cs : List Char) :
    (afterScheme? scheme cs).map server
      = (located? scheme (authority cs)).map fun host => ⟨scheme, host.1, host.2, "/", none, none⟩ := by
  simp only [afterScheme?, hspecial, if_true, Option.bind_eq_bind, Option.bind_some]
  show ((located? scheme (authority cs)).bind _).map server = _
  cases located? scheme (authority cs) <;> rfl

/-- Nothing is located in an empty text. -/
theorem located?_nil (scheme : String) : located? scheme [] = none := by
  have hhost : host? [] = none := by decide +kernel
  simp [located?, hostAndPort?, hhost]

/-- The path of a URL begins at a slash, so what stands behind that has no influence on the server. -/
theorem authority_append (h : cs.dropWhile isSlash ≠ []) (rest : List Char) :
    authority (cs ++ '/' :: rest) = authority cs := by
  have hdrop : (cs ++ '/' :: rest).dropWhile isSlash = cs.dropWhile isSlash ++ '/' :: rest := by
    rw [List.dropWhile_append, if_neg (by simpa using h)]
  simp only [authority, Text.fst_cutAt, List.takeWhile_map, List.takeWhile_takeWhile, hdrop]
  rw [Text.takeWhile_append_cons (by decide)]

/-- Behind slashes only there is nothing. -/
theorem authority_eq_nil (h : cs.dropWhile isSlash = []) : authority cs = [] := by
  rw [authority, h]
  rfl

/-! ## Addresses -/

/-- The scheme stands before the path. -/
theorem scheme?_append (cs rest : List Char) :
    scheme? (cs ++ '/' :: rest) = (scheme? cs).map fun found => (found.1, found.2 ++ '/' :: rest) := by
  have hslash : ('/'.isAlphanum || '/' == '+' || '/' == '-' || '/' == '.') = false := rfl
  rw [scheme?, scheme?]
  dsimp only
  rw [Text.takeWhile_append_cons hslash, Text.dropWhile_append_cons hslash]
  cases cs.dropWhile fun c => c.isAlphanum || c == '+' || c == '-' || c == '.' with
  | nil => rfl
  | cons c behind =>
      by_cases hc : c = ':'
      · subst hc
        show (if _ then some (_, behind ++ '/' :: rest) else none) = Option.map _ (if _ then some (_, behind) else none)
        split <;> rfl
      · simp [hc]

/-- The server at an address, if the slash behind the address makes it a URL of the web. -/
def serverAt? (address : String) : Option Url :=
  ((parse? (Client.trimAddress address ++ "/")).filter isWeb).map server

/-- What counts of the end of a text: no blanks at the end, and no line ends. -/
def counted (cs : List Char) : List Char :=
  (Text.trimEnd (fun c => c.toNat ≤ 32) cs).filter fun c => !isIgnored c

/-- What is read of a text that goes on with a slash depends, up to there, on what stands before the slash. -/
theorem exists_front (address : String) : ∃ front, ∀ rest,
    parse? (Client.trimAddress address ++ String.ofList ('/' :: rest)) = (scheme? front).bind fun found =>
      afterScheme? (String.ofList found.1) (found.2 ++ '/' :: counted rest) := by
  refine ⟨((Client.trimAddress address).toList.dropWhile fun c => c.toNat ≤ 32).filter fun c => !isIgnored c,
    fun rest => ?_⟩
  rw [parse?, String.toList_append, String.toList_ofList, Text.trim, Text.dropWhile_append_cons (by decide),
    Text.trimEnd_append_cons (by decide), List.filter_append, List.filter_cons_of_pos (by decide)]
  dsimp only
  rw [scheme?_append, counted]
  cases scheme? _ <;> rfl

/-- **Behind an address any path makes a URL** on the server at the address. -/
theorem exists_parse?_of_serverAt? {address path : String} {server : Url} (h : serverAt? address = some server)
    (hpath : path.toList.head? = some '/') :
    ∃ u, parse? (Client.trimAddress address ++ path) = some u ∧ u.isWeb = true ∧ u.server = server := by
  obtain ⟨root, hroot, rfl⟩ := Option.map_eq_some_iff.mp h
  obtain ⟨hparse, hweb⟩ := Option.filter_eq_some_iff.mp hroot
  obtain ⟨front, hfront⟩ := exists_front address
  obtain ⟨rest, hrest⟩ := List.head?_eq_some_iff.mp hpath
  obtain rfl : String.ofList ('/' :: rest) = path := by rw [← hrest, String.ofList_toList]
  rw [show "/" = String.ofList ['/'] from rfl, hfront] at hparse
  obtain ⟨⟨scheme, cs⟩, hscheme, hafter⟩ := Option.bind_eq_some_iff.mp hparse
  have hname : root.scheme = String.ofList scheme := scheme_of_afterScheme? hafter
  have hspecial : (hostSchemes.lookup (String.ofList scheme)).isSome = true := by
    rw [isWeb, Bool.or_eq_true, beq_iff_eq, beq_iff_eq, hname] at hweb
    rcases hweb with hweb | hweb <;> rw [hweb] <;> decide
  have hserver := map_server_afterScheme? hspecial (cs ++ '/' :: counted [])
  -- there is a host, so not all that stands before the path are slashes
  have hhost : cs.dropWhile isSlash ≠ [] := by
    intro hnil
    have hdrop : (cs ++ '/' :: counted []).dropWhile isSlash = [] := by
      rw [List.dropWhile_append, hnil]
      rfl
    rw [hafter, authority_eq_nil hdrop, located?_nil] at hserver
    cases hserver
  rw [hafter, authority_append hhost] at hserver
  have hother := map_server_afterScheme? hspecial (cs ++ '/' :: counted rest)
  rw [authority_append hhost, ← hserver] at hother
  obtain ⟨u, hu, hsame⟩ := Option.map_eq_some_iff.mp hother
  refine ⟨u, ?_, ?_, hsame⟩
  · rw [hfront, hscheme]
    exact hu
  · rw [isWeb, scheme_of_afterScheme? hu, ← hname]
    exact hweb

end Url

end ResourceTree
