import CustomResource.Proofs.Api.StatusPatch
import CustomResource.Proofs.Controller.Requests
import CustomResource.Proofs.Watch.Additions

/-!
# Which objects are processed

The handler that moves objects to the processed state sends one request about an object that has
been added and needs processing, and none about anything else. So the requests of a controller can
be read from its notifications, and neither the answers nor the errors of the watch change them.

What is *added* is decided by the store, which knows an object by its namespace and name. An object
that takes the place of another one under the same key is not added but updated, even where the
identity shows that it is new, and it is not processed. The condition for a request is therefore
that nothing is known under the key of the object.

## Main definitions

* `Notification.processedPatch?`: the request about a notification, if there is one.

## Main results

* `Handler.asks_statusProcessor`: the handler sends that request and no other.
* `Controller.status_processor_patches_added`: the requests of a whole run, and two runs compared.
* `Controller.delivered_patched_iff_unknown`: which objects of an observation are processed.
* `Controller.replaced_object_not_patched`: an object that takes the place of another one is not.
-/

namespace CustomResource

variable {k : Kind}

/-! ### The handler -/

namespace Notification

/-- The request that is made about a notification. -/
def processedPatch? : Notification k → Option Request
  | .added o => if o.needsProcessing then some o.processedPatch else none
  | .updated _ _ => none
  | .deleted _ => none

theorem processedPatch?_eq_some {n : Notification k} {r : Request}
    (h : n.processedPatch? = some r) : ∃ o, n = .added o ∧ o.processedPatch = r := by
  cases n with
  | added o =>
    rw [processedPatch?] at h
    split at h
    · exact ⟨o, rfl, Option.some.inj h⟩
    · simp at h
  | updated old new => simp [processedPatch?] at h
  | deleted o => simp [processedPatch?] at h

theorem filterMap_processedPatch? (ns : List (Notification k)) :
    ns.filterMap processedPatch? =
      ((ns.filterMap added?).filter Object.needsProcessing).map Object.processedPatch := by
  induction ns with
  | nil => rfl
  | cons n rest ih =>
    cases n with
    | updated old new => exact ih
    | deleted o => exact ih
    | added o =>
      have hadded : (.added o :: rest).filterMap added? = o :: rest.filterMap added? := rfl
      rw [hadded, List.filter_cons, List.filterMap_cons, ih, processedPatch?]
      cases o.needsProcessing <;> rfl

end Notification

/-- A client asks once for the status of an object to be set to processed, if this can be sent. -/
theorem Object.sent_patchStatus_processed {o : Object k} (h : o.metadata.name.isSome) {σ : Type}
    (meaning : Meaning σ) (state : σ) :
    ((⟨o.metadata.namespaceName.getD ""⟩ : Instances k).patchStatus o.name .processed).run.sent
      meaning state = if o.processedPatch.check.isOk then [o.processedPatch] else [] := by
  rw [← patchStatus_processed_eq h]
  exact Task.sent_call meaning _ _ state

/-- **What the handler sends.** A request that can be sent is sent once, whether or not it
succeeds. -/
theorem Handler.asks_statusProcessor {n : Notification k}
    (h : ∀ o, n = .added o → o.metadata.name.isSome) :
    statusProcessor.Asks n (n.processedPatch?.toList.filter fun r => r.check.isOk) := by
  intro σ meaning state
  cases n with
  | updated old new => rfl
  | deleted o => rfl
  | added o =>
    change (process o).sent meaning state = _
    rw [process, Program.sent_bind, Program.sent_log, List.nil_append, Notification.processedPatch?]
    split
    · rw [Program.sent_bind, Object.sent_patchStatus_processed (h o rfl), Option.toList_some,
        List.filter_cons, List.filter_nil]
      -- what is told about the outcome is no request
      refine (congrArg _ ?_).trans (List.append_nil _)
      split <;> rfl
    · rfl

theorem Handler.asks_statusProcessor_of_addressable {n : Notification k}
    (h : ∀ o, n = .added o → o.Addressable) :
    statusProcessor.Asks n n.processedPatch?.toList := by
  have hall : (n.processedPatch?.toList.filter fun r => r.check.isOk) =
      n.processedPatch?.toList := by
    refine List.filter_eq_self.mpr fun r hr => ?_
    obtain ⟨o, hn, rfl⟩ := Notification.processedPatch?_eq_some (Option.mem_toList.mp hr)
    rw [(h o hn).check_processedPatch]
    rfl
  rw [← hall]
  exact asks_statusProcessor fun o hn => (h o hn).isSome_name

namespace Controller

/-! ### Whole runs -/

/-- **The requests of a run.** Whatever is answered and whatever errors the watch has, a run sends
one request about each added object that needs processing, in the order in which the objects are
added, to the URL of the status of that object, and no request about anything that is updated or
deleted. Two runs that differ only in the errors of the watch, in any two worlds, send the same
requests and end with the same store. -/
theorem status_processor_patches_added (choices : List (Selected k))
    (hsafe : ∀ e ∈ observed choices, ∀ o ∈ e.objects, o.Addressable) :
    ∃ ns s, Informer.run? .empty (observed choices) = some (ns, s) ∧
      (∀ n ∈ ns, Handler.statusProcessor.Asks n n.processedPatch?.toList) ∧
      (∀ o, .added o ∈ ns → o.processedPatch.url = o.statusPath ++ "?") ∧
      (∀ (σ : Type) (meaning : Meaning σ) (state : σ),
        (run .statusProcessor choices).sent meaning state =
            ns.filterMap Notification.processedPatch? ∧
          ((run .statusProcessor choices).run meaning state).1.1 ≠ .brokenOff ∧
          ((run .statusProcessor choices).run meaning state).1.2 = s) ∧
      ∀ choices', withoutErrors choices' = withoutErrors choices →
        ∀ (σ σ' : Type) (meaning : Meaning σ) (state : σ)
          (meaning' : Meaning σ') (state' : σ'),
          (run .statusProcessor choices').sent meaning' state' =
              (run .statusProcessor choices).sent meaning state ∧
            ((run .statusProcessor choices').run meaning' state').1.2 =
              ((run .statusProcessor choices).run meaning state).1.2 := by
  obtain ⟨ns, s, hrun⟩ := Informer.exists_run .empty fun e he o ho => (hsafe e he o ho).isSome_name
  have hadded : ∀ o, .added o ∈ ns → o.Addressable := fun o ho => by
    obtain ⟨e, he, hmem⟩ := Informer.exists_mem_objects_of_added hrun ho
    exact hsafe e he o hmem
  have hasks : ∀ n ∈ ns, Handler.statusProcessor.Asks n n.processedPatch?.toList :=
    fun n hn => Handler.asks_statusProcessor_of_addressable fun o heq => hadded o (heq ▸ hn)
  have hspec : ∀ choices', observed choices' = observed choices →
      ∀ (σ : Type) (meaning : Meaning σ) (state : σ),
        (run .statusProcessor choices').sent meaning state =
            ns.filterMap Notification.processedPatch? ∧
          ((run .statusProcessor choices').run meaning state).1.1 ≠ .brokenOff ∧
          ((run .statusProcessor choices').run meaning state).1.2 = s := by
    intro choices' hsame σ meaning state
    obtain ⟨hending, hstore, hsent⟩ := run_spec meaning (hsame ▸ hrun) hasks state
    exact ⟨hsent.trans (List.filterMap_eq_flatMap_toList _ _).symm, hending, hstore⟩
  refine ⟨ns, s, hrun, hasks, fun o ho => (hadded o ho).url_processedPatch, hspec choices rfl, ?_⟩
  intro choices' herrors σ σ' meaning state meaning' state'
  have hsame : observed choices' = observed choices := by
    rw [← observed_withoutErrors choices', herrors, observed_withoutErrors]
  obtain ⟨hsent, -, hstore⟩ := hspec choices rfl σ meaning state
  obtain ⟨hsent', -, hstore'⟩ := hspec choices' hsame σ' meaning' state'
  exact ⟨hsent'.trans hsent.symm, hstore'.trans hstore.symm⟩

/-- Choices with an error of the watch between a list and a change, up to a cancellation. -/
def sampleChoices : List (Selected .test) :=
  [.item (.ok (.restarted [.sample "crd" "x" "1" "a", .sample "crd" "y" "2" "b"])),
    .item (.error .noVersion), .item (.ok (.applied (.sample "crd" "x" "3" "a"))),
    .item (.ok (.deleted (.sample "crd" "y" "4" "b"))), .cancelled,
    .item (.ok (.applied (.sample "crd" "z" "5" "c")))]

theorem sampleChoices_patched :
    (∀ e ∈ observed sampleChoices, ∀ o ∈ e.objects, o.Addressable) ∧
      ∀ (σ : Type) (meaning : Meaning σ) (state : σ),
        (run .statusProcessor sampleChoices).sent meaning state =
            [(Object.sample "crd" "x" "1" "a").processedPatch,
              (Object.sample "crd" "y" "2" "b").processedPatch] ∧
          (run .statusProcessor (withoutErrors sampleChoices)).sent meaning state =
            (run .statusProcessor sampleChoices).sent meaning state := by
  have hsafe : ∀ e ∈ observed sampleChoices, ∀ o ∈ e.objects, o.Addressable := by decide
  refine ⟨hsafe, fun σ meaning state => ?_⟩
  obtain ⟨ns, s, hrun, -, -, hsent, hsame⟩ := status_processor_patches_added sampleChoices hsafe
  have hns : ns = [.added (.sample "crd" "x" "1" "a"), .added (.sample "crd" "y" "2" "b"),
      .updated (.sample "crd" "x" "1" "a") (.sample "crd" "x" "3" "a"),
      .deleted (.sample "crd" "y" "4" "b")] :=
    congrArg Prod.fst (Option.some.inj (hrun.symm.trans rfl))
  refine ⟨(hsent σ meaning state).1.trans (hns ▸ rfl), ?_⟩
  exact (hsame (withoutErrors sampleChoices) rfl σ σ meaning state meaning state).1

/-! ### Which observed objects are processed -/

/-- While an observation is handled, exactly those requests are sent that can be sent and are about
objects that the observation says are there, that need processing and that are new under their
keys. -/
theorem sent_performAll_observation {past : List (Observation k)} {e : Observation k}
    {ns now : List (Notification k)} {s after : Store k}
    (hscoped : ∀ e ∈ past, ∀ o ∈ e.objects, o.metadata.namespaceName.isSome)
    (hnamed : e.Named) (hdistinct : ∀ os, e = .restarted os → (os.map Object.key?).Nodup)
    (hrun : Informer.run? .empty past = some (ns, s)) (hstep : Informer.Step s e now after)
    {σ : Type} (meaning : Meaning σ) (state : σ) :
    (performAll .statusProcessor (now.map (Step.call · after))).sent meaning state =
      (((e.delivered.filter (Observation.isNew past)).filter Object.needsProcessing).map
        Object.processedPatch).filter fun r => r.check.isOk := by
  have hasks : ∀ n ∈ now, Handler.statusProcessor.Asks n
      (n.processedPatch?.toList.filter fun r => r.check.isOk) := fun n hn =>
    Handler.asks_statusProcessor fun o heq => hnamed o (hstep.mem_objects_of_added (heq ▸ hn))
  rw [sent_performAll_calls meaning hasks, ← List.filter_flatMap,
    ← List.filterMap_eq_flatMap_toList, Notification.filterMap_processedPatch?,
    Informer.filterMap_added?_of_run hscoped hdistinct hrun hstep]

/-- **Which objects are processed.** While an observation is handled, a request is sent about an
object that it says is there and that needs processing exactly if nothing is known under the key of
the object: no earlier observation concerns the key, or the last one that does has left nothing
there. The identity of the object plays no part in it. The requests come in the order of the
objects, one about each. -/
theorem delivered_patched_iff_unknown (past : List (Observation k)) (e : Observation k)
    (hplaced : ∀ e' ∈ past ++ [e], ∀ o ∈ e'.objects,
      o.metadata.name.isSome ∧ o.metadata.namespaceName.isSome)
    (hdistinct : ∀ os, e = .restarted os → (os.map Object.key?).Nodup) :
    ∃ ns s steps after, Informer.run? .empty past = some (ns, s) ∧
      steps? s (.ok e) = some (steps, after) ∧
      ∀ (σ : Type) (meaning : Meaning σ) (state : σ),
        (performAll .statusProcessor steps).sent meaning state =
            (((e.delivered.filter (Observation.isNew past)).filter Object.needsProcessing).map
              Object.processedPatch).filter (fun r => r.check.isOk) ∧
          ((∀ o ∈ e.delivered, o.Addressable) → ∀ o ∈ e.delivered, o.needsProcessing →
            (o.processedPatch ∈ (performAll .statusProcessor steps).sent meaning state ↔
              ∀ key, o.key? = some key → Observation.known? past key = none)) := by
  obtain ⟨hpast, he⟩ := List.forall_mem_append.mp hplaced
  have hnamed : e.Named := fun o ho => (he e (List.mem_singleton_self e) o ho).1
  obtain ⟨ns, s, hrun⟩ := Informer.exists_run .empty fun e' he' o ho => (hpast e' he' o ho).1
  obtain ⟨now, after, hstep⟩ := Informer.exists_step s hnamed
  refine ⟨ns, s, _, after, hrun, steps?_ok (Informer.step?_eq_some_iff.mp hstep),
    fun σ meaning state => ?_⟩
  have hsent := sent_performAll_observation (fun e' he' o ho => (hpast e' he' o ho).2) hnamed
    hdistinct hrun (Informer.step?_eq_some_iff.mp hstep) meaning state
  refine ⟨hsent, fun hsafe o ho hneeds => ?_⟩
  rw [hsent, ← Observation.isNew_eq_true_iff]
  simp only [List.mem_filter, List.mem_map]
  constructor
  · rintro ⟨⟨o', ⟨⟨ho', hnew⟩, -⟩, heq⟩, -⟩
    -- an object with the same request stands under the same key
    have hkey := (hsafe o' ho').key?_eq_of_processedPatch_eq (hsafe o ho) heq
    rwa [Observation.isNew, hkey] at hnew
  · intro hnew
    refine ⟨⟨o, ⟨⟨ho, hnew⟩, hneeds⟩, rfl⟩, ?_⟩
    rw [(hsafe o ho).check_processedPatch]
    rfl

/-- Of two objects in a new list, the one under a free key is processed. The other one takes the
place of an object that was there before under its key. -/
theorem listed_object_patched_beside_replaced :
    ∃ ns s steps after,
      Informer.run? .empty [.restarted [.sample "crd" "x" "1" "a"]] = some (ns, s) ∧
      steps? s (.ok (.restarted [.sample "crd" "x" "2" "b", .sample "crd" "y" "3" "c"])) =
        some (steps, after) ∧
      ∀ (σ : Type) (meaning : Meaning σ) (state : σ),
        (Object.sample "crd" "y" "3" "c").processedPatch ∈
            (performAll .statusProcessor steps).sent meaning state ∧
          (Object.sample "crd" "x" "2" "b").processedPatch ∉
            (performAll .statusProcessor steps).sent meaning state := by
  obtain ⟨ns, s, steps, after, hrun, hsteps, hsent⟩ := delivered_patched_iff_unknown
    [.restarted [.sample "crd" "x" "1" "a"]]
    (.restarted [.sample "crd" "x" "2" "b", .sample "crd" "y" "3" "c"])
    (by simp [Observation.objects, Object.sample])
    (by rintro os ⟨⟩; decide)
  refine ⟨ns, s, steps, after, hrun, hsteps, fun σ meaning state => ?_⟩
  obtain ⟨-, hiff⟩ := hsent σ meaning state
  have hsafe : ∀ o ∈ [Object.sample "crd" "x" "2" "b", .sample "crd" "y" "3" "c"],
      o.Addressable := by decide
  refine ⟨(hiff hsafe _ (by simp [Observation.delivered]) rfl).mpr ?_, fun hmem => ?_⟩
  · rintro key ⟨⟩
    rfl
  · have hnone := (hiff hsafe _ (by simp [Observation.delivered]) rfl).mp hmem _ rfl
    exact Option.some_ne_none (Object.sample "crd" "x" "1" "a") hnone

/-- A new object under the key of another one, which was deleted unseen between two lists, needs
processing, and nothing is sent about it. -/
theorem replaced_object_not_patched :
    ∃ ns s steps after,
      Informer.run? .empty [.restarted [.sample "crd" "x" "1" "a"]] = some (ns, s) ∧
      steps? s (.ok (.restarted [.sample "crd" "x" "2" "b"])) = some (steps, after) ∧
      (Object.sample "crd" "x" "2" "b").Addressable ∧
      (Object.sample "crd" "x" "2" "b").metadata.uid ≠
        (Object.sample "crd" "x" "1" "a").metadata.uid ∧
      (Object.sample "crd" "x" "2" "b").needsProcessing = true ∧
      ∀ (σ : Type) (meaning : Meaning σ) (state : σ),
        (performAll .statusProcessor steps).sent meaning state = [] :=
  ⟨_, _, _, _, rfl, rfl, by decide, by decide, rfl, fun _ _ _ => rfl⟩

end Controller

end CustomResource
