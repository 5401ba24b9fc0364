import CustomResource.Definition.Basic
import CustomResource.Api.Request
import Mathlib.Data.List.TakeWhile

/-!
# Requests that can be sent

Paths are put together by plain concatenation, so what a request is about can be read from it only
if the names in it stand for themselves. A request can be sent if its path is made of characters
that may stand in a path and do not end it, and is not too long. This covers all requests without
parameters, be their list of parameters empty or missing. In particular a definition can be created,
and it can be read and deleted as long as its name stands for itself; the names of the kinds do.

## Scope

`Uri.isSegment` allows more than the apiserver does: it takes out only what ends a segment or a
path, what is refused in one, and the percent sign, with which a character is written in another
way.

## Main definitions

* `Uri.isSegment`: the texts that stand for themselves as a segment of a path.
* `Definition.IsPlainName`: the names of definitions that have a URL.

## Main results

* `Uri.check_of_path`, `check_of_bare_path`: which texts are paths.
* `Request.check_of_path`: which requests can be sent.
* `Request.check_create_definition`, `check_read_definition`, `check_delete_definition`: the
  requests about definitions can.
-/

namespace CustomResource

/-! ### Paths -/

namespace Uri

/-- Whether a text stands for itself as one segment of a path. -/
def isSegment (text : String) : Bool :=
  text.toList.all fun c => isPathChar c && c ≠ '/' && c ≠ '?' && c ≠ '#' && c ≠ '%'

/-- Whether a character may stand in a path and does not end it. -/
def isInner (c : Char) : Bool := isPathChar c && c ≠ '?' && c ≠ '#'

theorem isInner_iff {c : Char} : isInner c = true ↔ isPathChar c = true ∧ c ≠ '?' ∧ c ≠ '#' := by
  simp [isInner, and_assoc]

theorem of_mem_of_isSegment {text : String} (h : isSegment text = true) {c : Char}
    (hc : c ∈ text.toList) : isPathChar c = true ∧ c ≠ '/' ∧ c ≠ '?' ∧ c ≠ '#' := by
  have hchar := List.all_eq_true.mp h c hc
  simp only [Bool.and_eq_true, decide_eq_true_eq] at hchar
  obtain ⟨⟨⟨⟨hpath, hslash⟩, hquery⟩, hhash⟩, -⟩ := hchar
  exact ⟨hpath, hslash, hquery, hhash⟩

theorem all_isInner_of_isSegment {text : String} (h : isSegment text = true) :
    text.toList.all isInner = true := by
  refine List.all_eq_true.mpr fun c hc => isInner_iff.mpr ?_
  obtain ⟨hpath, -, hquery, hhash⟩ := of_mem_of_isSegment h hc
  exact ⟨hpath, hquery, hhash⟩

/-- What has no slash in it is what stands before the slash after it. -/
theorem takeWhile_of_not_mem {cs : List Char} (h : '/' ∉ cs) (rest : List Char) :
    (cs ++ '/' :: rest).takeWhile (· ≠ '/') = cs := by
  rw [List.takeWhile_append_of_pos fun c hc => by simpa using ne_of_mem_of_not_mem hc h]
  simp

theorem slash_not_mem_of_isSegment {text : String} (h : isSegment text = true) :
    '/' ∉ text.toList := fun hc => (of_mem_of_isSegment h hc).2.1 rfl

/-- No number sign cuts off what stands before an empty list of parameters. -/
theorem takeWhile_of_all_isInner {cs : List Char} (h : cs.all isInner = true) :
    (cs ++ ['?']).takeWhile (· ≠ '#') = cs ++ ['?'] := by
  refine List.takeWhile_eq_self_iff.mpr fun c hc => ?_
  rcases List.mem_append.mp hc with hc | hc
  · simpa using (isInner_iff.mp (List.all_eq_true.mp h c hc)).2.2
  · obtain rfl : c = '?' := List.mem_singleton.mp hc
    rfl

theorem checkPath_of_all_isInner {cs : List Char} (h : cs.all isInner = true) :
    checkPath (cs ++ ['?']) = .ok () := by
  have huncut := takeWhile_of_all_isInner h
  have hinner := fun c hc => isInner_iff.mp (List.all_eq_true.mp h c hc)
  have hmark : ∀ c ∈ cs, decide (c ≠ '?') = true := fun c hc => by simpa using (hinner c hc).2.1
  have hpath : (cs ++ ['?']).takeWhile (· ≠ '?') = cs := by
    rw [List.takeWhile_append_of_pos hmark]
    simp
  have hquery : (cs ++ ['?']).dropWhile (· ≠ '?') = ['?'] := by
    rw [List.dropWhile_append_of_pos hmark]
    simp
  have hlegal : cs.all isPathChar = true := List.all_eq_true.mpr fun c hc => (hinner c hc).1
  simp only [checkPath, huncut, hpath, hquery, hlegal]
  rfl

/-- A path with an empty list of parameters is a URI, as long as it is not too long. -/
theorem check_of_path {path : String} (hslash : path.toList.head? = some '/')
    (h : path.toList.all isInner = true) (hsize : path.utf8ByteSize < greatestSize) :
    check (path ++ "?") = .ok () := by
  obtain ⟨rest, hrest⟩ := List.head?_eq_some_iff.mp hslash
  have hfits : ¬ greatestSize < (path ++ "?").utf8ByteSize := by
    rw [String.utf8ByteSize_append, show "?".utf8ByteSize = 1 from rfl]
    omega
  have hlist : (path ++ "?").toList = '/' :: (rest ++ ['?']) := by
    rw [String.toList_append, hrest]
    rfl
  rw [check, if_neg hfits, hlist]
  rw [hrest] at h
  exact @checkPath_of_all_isInner ('/' :: rest) h

theorem checkPath_of_bare_path {cs : List Char} (h : cs.all isInner = true) :
    checkPath cs = .ok () := by
  have hinner := fun c hc => isInner_iff.mp (List.all_eq_true.mp h c hc)
  have huncut : cs.takeWhile (· ≠ '#') = cs :=
    List.takeWhile_eq_self_iff.mpr fun c hc => by simpa using (hinner c hc).2.2
  have hpath : cs.takeWhile (· ≠ '?') = cs :=
    List.takeWhile_eq_self_iff.mpr fun c hc => by simpa using (hinner c hc).2.1
  have hquery : cs.dropWhile (· ≠ '?') = [] :=
    List.dropWhile_eq_nil_iff.mpr fun c hc => by simpa using (hinner c hc).2.1
  have hlegal : cs.all isPathChar = true := List.all_eq_true.mpr fun c hc => (hinner c hc).1
  simp only [checkPath, huncut, hpath, hquery, hlegal]
  rfl

/-- A path without parameters is a URI, as long as it is not too long. -/
theorem check_of_bare_path {path : String} (hslash : path.toList.head? = some '/')
    (h : path.toList.all isInner = true) (hsize : path.utf8ByteSize < greatestSize) :
    check path = .ok () := by
  obtain ⟨rest, hrest⟩ := List.head?_eq_some_iff.mp hslash
  rw [check, if_neg (Nat.not_lt.mpr (Nat.le_of_lt hsize)), hrest]
  rw [hrest] at h
  exact checkPath_of_bare_path h

end Uri

/-! ### Requests -/

namespace Request

/-- Nothing is cut off a path with an empty list of parameters. -/
theorem url_of_path {r : Request} (hquery : r.query = some [])
    (hinner : r.path.toList.all Uri.isInner = true) : r.url = r.path ++ "?" := by
  have hfull : r.fullText = r.path ++ "?" := by simp [fullText, hquery, Query.render]
  have huncut : (r.path ++ "?").toList.takeWhile (· ≠ '#') = (r.path ++ "?").toList := by
    rw [String.toList_append]
    exact Uri.takeWhile_of_all_isInner hinner
  rw [url, hfull, huncut, String.ofList_toList]

/-- Nothing is cut off a path without parameters. -/
theorem url_of_bare_path {r : Request} (hquery : r.query = none)
    (hinner : r.path.toList.all Uri.isInner = true) : r.url = r.path := by
  have hfull : r.fullText = r.path := by simp [fullText, hquery]
  have huncut : r.path.toList.takeWhile (· ≠ '#') = r.path.toList :=
    List.takeWhile_eq_self_iff.mpr fun c hc => by
      simpa using (Uri.isInner_iff.mp (List.all_eq_true.mp hinner c hc)).2.2
  rw [url, hfull, huncut, String.ofList_toList]

/-- **A request without parameters can be sent** if its path is one and is not too long. -/
theorem check_of_path {r : Request} (hquery : r.query = some [] ∨ r.query = none)
    (hslash : r.path.toList.head? = some '/') (hinner : r.path.toList.all Uri.isInner = true)
    (hsize : r.path.utf8ByteSize < Uri.greatestSize) : r.check = .ok () := by
  rcases hquery with hquery | hquery
  · rw [check, url_of_path hquery hinner, Uri.check_of_path hslash hinner hsize]
    rfl
  · rw [check, url_of_bare_path hquery hinner, Uri.check_of_bare_path hslash hinner hsize]
    rfl

theorem exists_fault_of_check {r : Request} {e : Api.Error} (h : r.check = .error e) :
    ∃ fault, e = .badRequest (.uri fault) := by
  rw [check] at h
  cases hurl : Uri.check r.url with
  | error fault => exact ⟨fault, by simpa [hurl, Except.mapError] using h.symm⟩
  | ok u => simp [hurl, Except.mapError] at h

end Request

/-! ### Objects of an endpoint -/

namespace Endpoint

theorem toList_item (e : Endpoint) (name : String) :
    (e.item name).toList = e.path.toList ++ '/' :: name.toList := by
  simp [item]

theorem item_inj {e : Endpoint} {name name' : String} :
    e.item name = e.item name' ↔ name = name' := by
  rw [← String.toList_inj, toList_item, toList_item, List.append_cancel_left_eq, List.cons.injEq,
    String.toList_inj]
  exact and_iff_right rfl

theorem all_isInner_item {e : Endpoint} (he : e.path.toList.all Uri.isInner = true)
    {name : String} (hname : Uri.isSegment name = true) :
    (e.item name).toList.all Uri.isInner = true := by
  have hslash : Uri.isInner '/' = true := rfl
  rw [toList_item, List.all_append, List.all_cons, he, hslash,
    Uri.all_isInner_of_isSegment hname]
  rfl

theorem head?_item {e : Endpoint} (he : e.path.toList.head? = some '/') (name : String) :
    (e.item name).toList.head? = some '/' := by
  rw [toList_item, List.head?_append, he]
  rfl

theorem head?_definitions : definitions.path.toList.head? = some '/' := rfl

theorem all_isInner_definitions : definitions.path.toList.all Uri.isInner = true := rfl

theorem size_definitions : definitions.path.utf8ByteSize = 55 := rfl

theorem size_item (e : Endpoint) (name : String) :
    (e.item name).utf8ByteSize = e.path.utf8ByteSize + 1 + name.utf8ByteSize := by
  rw [item, String.utf8ByteSize_append, String.utf8ByteSize_append]
  rfl

end Endpoint

/-! ### Definitions -/

/-- The name of a definition that stands for itself in a path, and is not too long for a URL. -/
structure Definition.IsPlainName (name : String) : Prop where
  segment : Uri.isSegment name = true
  size : name.utf8ByteSize + 56 < Uri.greatestSize

theorem Kind.isPlainName_definitionName (k : Kind) : Definition.IsPlainName k.definitionName where
  segment := by cases k <;> rfl
  size := by cases k <;> decide

namespace Request

theorem check_create_definition (object : Json) : (create .definitions object).check = .ok () :=
  check_of_path (Or.inl rfl) Endpoint.head?_definitions Endpoint.all_isInner_definitions
    (Endpoint.size_definitions ▸ (by decide : 55 < Uri.greatestSize))

theorem check_definition_item {name : String} (h : Definition.IsPlainName name) {r : Request}
    (hquery : r.query = some [] ∨ r.query = none)
    (hpath : r.path = Endpoint.definitions.item name) : r.check = .ok () := by
  have hsize : r.path.utf8ByteSize < Uri.greatestSize := by
    rw [hpath, Endpoint.size_item, Endpoint.size_definitions]
    have := h.size
    omega
  refine check_of_path hquery ?_ ?_ hsize
  · exact hpath ▸ Endpoint.head?_item Endpoint.head?_definitions name
  · exact hpath ▸ Endpoint.all_isInner_item Endpoint.all_isInner_definitions h.segment

theorem check_read_definition {name : String} (h : Definition.IsPlainName name) :
    (read .definitions name).check = .ok () :=
  check_definition_item h (Or.inr rfl) rfl

theorem check_delete_definition {name : String} (h : Definition.IsPlainName name)
    (options : Json) : (delete .definitions name options).check = .ok () :=
  check_definition_item h (Or.inl rfl) rfl

end Request

end CustomResource
