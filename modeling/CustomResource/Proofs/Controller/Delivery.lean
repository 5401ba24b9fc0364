import CustomResource.Proofs.Controller.Processing
import CustomResource.Proofs.Resource.Lifecycle

/-!
# Which documents are processed

From the text of an object to the request about it: a controller that knows nothing yet is told of
the object that has been read from the text, alone or in a list. All objects that it is told of are
new to it, so what it asks for depends on each of them by itself, and thus on its text.

## Main definitions

* `Controller.patchesOf`: the requests about objects that are all new.

## Main results

* `Controller.exists_steps_of_empty`: what is asked for about the first observation.
* `Controller.document_processed_iff_waits`: a document is processed exactly if it waits.
-/

namespace CustomResource.Controller

variable {k : Kind}

/-! ### The first observation -/

/-- The requests about objects that are all new, as far as they can be sent. -/
def patchesOf (os : List (Object k)) : List Request :=
  ((os.filter Object.needsProcessing).map Object.processedPatch).filter fun r => r.check.isOk

theorem patchesOf_append (os os' : List (Object k)) :
    patchesOf (os ++ os') = patchesOf os ++ patchesOf os' := by
  simp [patchesOf]

theorem exists_of_mem_patchesOf {os : List (Object k)} {r : Request} (h : r ∈ patchesOf os) :
    ∃ o ∈ os, r = o.processedPatch := by
  obtain ⟨hmap, -⟩ := List.mem_filter.mp h
  obtain ⟨o, ho, rfl⟩ := List.mem_map.mp hmap
  exact ⟨o, (List.mem_filter.mp ho).1, rfl⟩

/-- About an object that has a URL one request is made, or none. -/
theorem patchesOf_singleton {o : Object k} (h : o.Addressable) :
    patchesOf [o] = if o.needsProcessing then [o.processedPatch] else [] := by
  have hcheck : o.processedPatch.check.isOk = true := by
    rw [h.check_processedPatch]
    rfl
  cases hneeds : o.needsProcessing <;> simp [patchesOf, hneeds, hcheck]

/-- A controller that knows nothing asks for what concerns the objects that it is told of. -/
theorem exists_steps_of_empty {e : Observation k} (hnamed : e.Named)
    (hdistinct : (e.delivered.map Object.key?).Nodup) :
    ∃ steps after, steps? .empty (.ok e) = some (steps, after) ∧
      ∀ (σ : Type) (meaning : Meaning σ) (state : σ),
        (performAll .statusProcessor steps).sent meaning state = patchesOf e.delivered := by
  obtain ⟨now, after, hstep⟩ := Informer.exists_step .empty hnamed
  have hstep := Informer.step?_eq_some_iff.mp hstep
  refine ⟨_, after, steps?_ok hstep, fun σ meaning state => ?_⟩
  have hlist : ∀ os, e = .restarted os → (os.map Object.key?).Nodup := by
    rintro os rfl
    exact hdistinct
  rw [sent_performAll_observation (List.forall_mem_nil _) hnamed hlist rfl hstep]
  have hnew : e.delivered.filter (Observation.isNew []) = e.delivered :=
    List.filter_eq_self.mpr fun o _ => Observation.isNew_eq_true_iff.mpr fun _ _ => rfl
  rw [hnew, patchesOf]

/-! ### Documents -/

/-- **A document is processed exactly if it waits.** An object that has been read from a text, and
has a URL, is made known to a controller that knows nothing yet, by itself or among others under
other keys. While this is handled, a single request is made about it if its document waits for the
controller, and none if the document names another state. All other requests are about the objects
under other keys, and have other paths unless the namespace is empty. -/
theorem document_processed_iff_waits {text : String} {o : Object k}
    (h : Decoder.ofText (Object.decode k) text = .ok o) (hsafe : o.Addressable)
    {e : Observation k} (ho : o ∈ e.delivered) (hnamed : e.Named)
    (hdistinct : (e.delivered.map Object.key?).Nodup) :
    ∃ steps after, steps? .empty (.ok e) = some (steps, after) ∧
      ∀ (σ : Type) (meaning : Meaning σ) (state : σ), ∃ before own later,
        (performAll .statusProcessor steps).sent meaning state = before ++ (own ++ later) ∧
        (∀ r ∈ before ++ later, ∃ o' ∈ e.delivered, r = o'.processedPatch ∧ o'.key? ≠ o.key? ∧
          (o.metadata.namespaceName ≠ some "" → r.path ≠ o.statusPath)) ∧
        (own = [o.processedPatch] ↔ (Json.Document.ofText text).root.Waits) ∧
        (own = [] ↔ ∃ name, (Json.Document.ofText text).root.NamesState name ∧
          name ≠ "Created" ∧ name ≠ "Pending") := by
  obtain ⟨steps, after, hsteps, hsent⟩ := exists_steps_of_empty hnamed hdistinct
  obtain ⟨os, os', hos⟩ := List.append_of_mem ho
  refine ⟨steps, after, hsteps, fun σ meaning state =>
    ⟨patchesOf os, patchesOf [o], patchesOf os', ?_, ?_, ?_, ?_⟩⟩
  · rw [hsent, hos, ← patchesOf_append, ← patchesOf_append]
    rfl
  · intro r hr
    rw [← patchesOf_append] at hr
    obtain ⟨o', ho', rfl⟩ := exists_of_mem_patchesOf hr
    have hmem : o' ∈ e.delivered := by
      rw [hos]
      obtain ho' | ho' := List.mem_append.mp ho'
      · exact List.mem_append_left _ ho'
      · exact List.mem_append_right _ (List.mem_cons_of_mem _ ho')
    have hkey : o'.key? ≠ o.key? := by
      rw [hos] at hdistinct
      rw [List.map_append, List.map_cons, List.nodup_middle, ← List.map_append] at hdistinct
      exact fun heq => (List.nodup_cons.mp hdistinct).1 (heq ▸ List.mem_map_of_mem ho')
    refine ⟨o', hmem, rfl, hkey, fun hscope heq => hkey ?_⟩
    exact hsafe.key?_eq_of_statusPath_eq hscope (hnamed.of_delivered hmem) heq
  · rw [patchesOf_singleton hsafe, ← Object.needsProcessing_iff_waits h]
    cases o.needsProcessing <;> simp
  · rw [patchesOf_singleton hsafe, ← Object.not_needsProcessing_iff h]
    cases o.needsProcessing <;> simp

/-- An object in a namespace, its spec as an array, that is pending in the form of an object. -/
def pendingText : String :=
  "\x7b\"metadata\":\x7b\"name\":\"x\",\"namespace\":\"crd\"\x7d,\"spec\":[\"hello\",true]," ++
    "\"status\":\x7b\"state\":\x7b\"Pending\":null\x7d\x7d\x7d"

theorem exists_of_pendingText : ∃ o : Object .test,
    Decoder.ofText (Object.decode .test) pendingText = .ok o ∧ o.Addressable ∧
      o.key? = some ⟨some "crd", "x"⟩ ∧ o.needsProcessing = true := by
  have hcheck : (Decoder.ofText (Object.decode .test) pendingText).toOption.any (fun o =>
      decide (o.Addressable ∧ o.key? = some ⟨some "crd", "x"⟩ ∧ o.needsProcessing = true)) =
      true := by
    unfold pendingText Decoder.ofText Json.Document.ofText
    simp only [String.toList_append]
    rw [String.toList_ofList, String.toList_ofList]
    decide +kernel
  obtain ⟨o, hread, hcheck⟩ := Decoder.exists_of_any hcheck
  exact ⟨o, hread, of_decide_eq_true hcheck⟩

theorem document_processed_iff_waits_pendingText : ∃ o : Object .test,
    Decoder.ofText (Object.decode .test) pendingText = .ok o ∧ o.Addressable ∧
      ∃ steps after,
        steps? .empty (.ok (.restarted [.sample "crd" "y" "2" "b", o])) = some (steps, after) ∧
        ∀ (σ : Type) (meaning : Meaning σ) (state : σ), ∃ before later,
          (performAll .statusProcessor steps).sent meaning state =
            before ++ ([o.processedPatch] ++ later) ∧
          ∀ r ∈ before ++ later, r.path ≠ o.statusPath := by
  obtain ⟨o, hread, hsafe, hkey, hneeds⟩ := exists_of_pendingText
  have hscope : o.metadata.namespaceName ≠ some "" := by
    intro hempty
    obtain ⟨name, -, hname⟩ := Option.map_eq_some_iff.mp hkey
    simp [hempty] at hname
  have hother : (Object.sample "crd" "y" "2" "b").key? = some ⟨some "crd", "y"⟩ := rfl
  obtain ⟨steps, after, hsteps, hsent⟩ := document_processed_iff_waits hread hsafe
    (e := .restarted [.sample "crd" "y" "2" "b", o]) (by simp [Observation.delivered])
    (by simp [Observation.Named, Observation.objects, Object.sample, hsafe.isSome_name])
    (by simp [Observation.delivered, hkey, hother])
  refine ⟨o, hread, hsafe, steps, after, hsteps, fun σ meaning state => ?_⟩
  obtain ⟨before, own, later, hsent, hothers, hown, -⟩ := hsent σ meaning state
  rw [hown.mpr ((Object.needsProcessing_iff_waits hread).mp hneeds)] at hsent
  refine ⟨before, later, hsent, fun r hr => ?_⟩
  obtain ⟨-, -, -, -, hpath⟩ := hothers r hr
  exact hpath hscope

end CustomResource.Controller
