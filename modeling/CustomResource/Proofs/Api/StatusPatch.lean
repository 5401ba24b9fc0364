import CustomResource.Client.Instances
import CustomResource.Proofs.Api.Paths
import CustomResource.Watch.Store

/-!
# The request that moves an object to the processed state

For names that stand for themselves in a path, the request that changes the status of an object is
written out here in full. It can be sent, its URL is the path of the status of that very object, and
objects under different keys have different requests.

## Main definitions

* `Object.processedPatch`: the request, written out.
* `Object.Addressable`: the objects whose status has a URL.

## Main results

* `Object.Addressable.url_processedPatch`, `check_processedPatch`: the request has its URL.
* `Object.Addressable.key?_eq_of_processedPatch_eq`: the request determines the key.
* `Object.Addressable.key?_eq_of_statusPath_eq`: so does its path, among all named objects.
-/

namespace CustomResource

/-! ### The request -/

namespace Object

variable {k : Kind}

/-- The path of the status of an object that has a name and a namespace. -/
def statusPath (o : Object k) : String :=
  "/apis/" ++ k.group ++ "/v1/namespaces/" ++ o.metadata.namespaceName.getD "" ++ "/" ++ k.plural ++
    "/" ++ o.metadata.name.getD "" ++ "/status"

/-- The request that moves an object to the processed state, and touches nothing else in it. -/
def processedPatch (o : Object k) : Request where
  method := .patch
  path := o.statusPath
  query := some []
  body := some (.mergePatch, .object [("status", .object
    [("message", .string "Successfully processed by controller"), ("state", .string "Processed")])])

/-- An object whose name and namespace stand for themselves in a path, and are not too long for a
URL. -/
structure Addressable (o : Object k) : Prop where
  scope : ∃ scope ∈ o.metadata.namespaceName, Uri.isSegment scope = true
  name : ∃ name ∈ o.metadata.name, Uri.isSegment name = true
  size : o.statusPath.utf8ByteSize < Uri.greatestSize

instance (o : Object k) : Decidable o.Addressable :=
  decidable_of_iff ((∃ scope ∈ o.metadata.namespaceName, Uri.isSegment scope = true) ∧
      (∃ name ∈ o.metadata.name, Uri.isSegment name = true) ∧
        o.statusPath.utf8ByteSize < Uri.greatestSize)
    ⟨fun ⟨scope, name, size⟩ => ⟨scope, name, size⟩, fun ⟨scope, name, size⟩ => ⟨scope, name, size⟩⟩

theorem status_instances_eq_statusPath {o : Object k} (h : o.metadata.name.isSome) :
    (Endpoint.instances k (o.metadata.namespaceName.getD "")).status o.name = o.statusPath := by
  obtain ⟨name, hname⟩ := Option.isSome_iff_exists.mp h
  have hroot : "/apis/" ++ k.apiVersion ++ "/namespaces/" =
      "/apis/" ++ k.group ++ "/v1/namespaces/" := by cases k <;> rfl
  have hself : o.name = name := by simp [Object.name, Metadata.nameOrPrefix, hname]
  rw [statusPath, ← hroot, hname, ← hself]
  rfl

/-- What a client asks for is the request that is written out here. -/
theorem patchStatus_processed_eq {o : Object k} (h : o.metadata.name.isSome) :
    Request.patchStatus (.instances k (o.metadata.namespaceName.getD "")) o.name
      (.merge Status.processed.patchBody) = o.processedPatch := by
  rw [Request.patchStatus, status_instances_eq_statusPath h]
  rfl

theorem toList_statusPath (o : Object k) :
    o.statusPath.toList = ("/apis/" ++ k.group ++ "/v1/namespaces/").toList ++
      ((o.metadata.namespaceName.getD "").toList ++
        '/' :: (k.plural.toList ++ '/' :: ((o.metadata.name.getD "").toList ++
          "/status".toList))) := by
  simp [statusPath]

namespace Addressable

theorem isSome_name {o : Object k} (h : o.Addressable) : o.metadata.name.isSome := by
  obtain ⟨name, hname, -⟩ := h.name
  exact Option.isSome_iff_exists.mpr ⟨name, hname⟩

theorem all_isInner {o : Object k} (h : o.Addressable) :
    o.statusPath.toList.all Uri.isInner = true := by
  obtain ⟨scope, hscope, hsafe⟩ := h.scope
  obtain ⟨name, hname, hsafe'⟩ := h.name
  have hroot : ("/apis/" ++ k.group ++ "/v1/namespaces/").toList.all Uri.isInner = true := by
    cases k <;> rfl
  have hplural : k.plural.toList.all Uri.isInner = true := by cases k <;> rfl
  have hend : "/status".toList.all Uri.isInner = true := rfl
  have hslash : Uri.isInner '/' = true := rfl
  rw [Option.mem_def] at hscope hname
  simp only [toList_statusPath, hscope, hname, Option.getD_some, List.all_append, List.all_cons,
    Bool.and_eq_true]
  exact ⟨hroot, Uri.all_isInner_of_isSegment hsafe, hslash, hplural, hslash,
    Uri.all_isInner_of_isSegment hsafe', hend⟩

/-- The URL is the path of the status, with nothing cut off. -/
theorem url_processedPatch {o : Object k} (h : o.Addressable) :
    o.processedPatch.url = o.statusPath ++ "?" :=
  Request.url_of_path rfl h.all_isInner

theorem check_processedPatch {o : Object k} (h : o.Addressable) :
    o.processedPatch.check = .ok () := by
  have hslash : o.statusPath.toList.head? = some '/' := by
    rw [toList_statusPath]
    cases k <;> rfl
  exact Request.check_of_path (Or.inl rfl) hslash h.all_isInner h.size

/-- The path of the status determines the namespace and the name, among all objects that have a
name. An empty namespace cannot be told from a missing one. -/
theorem eq_of_statusPath_eq {o o' : Object k} (h : o.Addressable)
    (hname' : o'.metadata.name.isSome) (heq : o'.statusPath = o.statusPath) :
    o'.metadata.namespaceName.getD "" = o.metadata.namespaceName.getD "" ∧
      o'.metadata.name = o.metadata.name := by
  obtain ⟨scope, hscope, hsafe⟩ := h.scope
  obtain ⟨name, hname, hsafe'⟩ := h.name
  obtain ⟨name', hname'⟩ := Option.isSome_iff_exists.mp hname'
  rw [Option.mem_def] at hscope hname
  have hpath := congrArg String.toList heq
  rw [toList_statusPath, toList_statusPath, hscope, hname, hname'] at hpath
  have hrest := List.append_cancel_left hpath
  -- as many slashes on both sides leave none for the namespace and the name
  have hcount := congrArg (List.count '/') hrest
  have hnone := List.count_eq_zero.mpr (Uri.slash_not_mem_of_isSegment hsafe)
  have hnone' := List.count_eq_zero.mpr (Uri.slash_not_mem_of_isSegment hsafe')
  simp only [List.count_append, List.count_cons_self, Option.getD_some, hnone, hnone'] at hcount
  have hfree : '/' ∉ (o'.metadata.namespaceName.getD "").toList :=
    List.count_eq_zero.mp (by omega)
  have hscopes : o'.metadata.namespaceName.getD "" = scope := String.toList_injective <| by
    rw [← Uri.takeWhile_of_not_mem hfree, hrest, Option.getD_some,
      Uri.takeWhile_of_not_mem (Uri.slash_not_mem_of_isSegment hsafe)]
  have hnames : name' = name := String.toList_injective <| by
    simpa [hscopes] using hrest
  rw [hscopes, hscope, hname, hname', hnames]
  exact ⟨rfl, rfl⟩

/-- **The path of the status determines the key** unless the namespace is empty. -/
theorem key?_eq_of_statusPath_eq {o o' : Object k} (h : o.Addressable)
    (hscope : o.metadata.namespaceName ≠ some "") (hname' : o'.metadata.name.isSome)
    (heq : o'.statusPath = o.statusPath) : o'.key? = o.key? := by
  obtain ⟨scope, hsome, -⟩ := h.scope
  rw [Option.mem_def] at hsome
  obtain ⟨hscopes, hnames⟩ := h.eq_of_statusPath_eq hname' heq
  rw [hsome, Option.getD_some] at hscopes
  cases hsome' : o'.metadata.namespaceName with
  | none =>
    rw [hsome', Option.getD_none] at hscopes
    exact absurd (hsome.trans (congrArg some hscopes.symm)) hscope
  | some scope' =>
    rw [hsome', Option.getD_some] at hscopes
    rw [key?, key?, hnames, hsome', hscopes, hsome]

/-- The request determines the key of the object. -/
theorem key?_eq_of_processedPatch_eq {o o' : Object k} (h : o.Addressable) (h' : o'.Addressable)
    (heq : o.processedPatch = o'.processedPatch) : o.key? = o'.key? := by
  obtain ⟨scope, hscope, -⟩ := h.scope
  obtain ⟨scope', hscope', -⟩ := h'.scope
  rw [Option.mem_def] at hscope hscope'
  obtain ⟨hscopes, hnames⟩ := h'.eq_of_statusPath_eq h.isSome_name (congrArg Request.path heq)
  rw [hscope, hscope', Option.getD_some, Option.getD_some] at hscopes
  rw [key?, key?, hnames, hscope, hscope', hscopes]

end Addressable

end Object

end CustomResource
