import CustomResource.Proofs.Client.Shelf

/-!
# Two ways to write an instance

The spec and the status of an instance can be written by reading it and replacing it as a whole, or
by a patch of its spec; in both cases a patch of the status follows, since a write of the instance
itself leaves the status. Against an apiserver that writes what it is given, with no one else
writing at the time, both ways succeed whatever has been stored before, and the instance has the
same spec and the same status in the end. They differ in one thing: who replaces an instance writes
its timestamps anew, and only to the second.

## Main definitions

* `Instances.Keeps`: a server keeps an instance.

## Main results

* `Instances.Keeps.run_updateSpecAndStatus`, `run_patchSpecAndStatus`: what each way comes to.
* `Instances.keeps_shelf`: there is such a server.
* `Instances.writes_agree`: both together.
-/

namespace CustomResource.Instances

open Decoder

variable {k : Kind} {σ : Type}

/-! ### Servers that keep an instance -/

/-- A server keeps an instance under the name that it carries, and no one else writes to it. The
instance can be replaced by an object that carries its name and its version, and its spec and its
status can be patched. A write of the instance leaves the status as it is, and a write of the status
leaves everything else. What is stored is shown in every answer. -/
structure Keeps (c : Instances k) (name : String) (meaning : Meaning σ) (stored : σ → Json) :
    Prop where
  named (s : σ) (o : Object k) (ho : ofJson (Object.decode k) (stored s) = .ok o) :
    o.metadata.name = some name
  reads (s : σ) :
    Shows k (meaning (.send (.read c.endpoint name) none) s).1 (stored s) ∧
      stored (meaning (.send (.read c.endpoint name) none) s).2 = stored s
  replaces (s : σ) (o : Object k) (hname : o.metadata.name = some name)
    (hversion : o.metadata.resourceVersion = (stored s).version?) :
    let after := meaning (.send (.replace c.endpoint name o.encode) none) s
    Shows k after.1 (stored after.2) ∧ Json.Written o.encode (stored s) (stored after.2)
  patches (s : σ) (spec : k.Spec) (changed : Json)
    (hchanged : Json.replaceAt? "/spec" (Spec.encode k spec).sorted (stored s) = some changed) :
    let after := meaning
      (.send (.patch c.endpoint name (.json (Spec.patchOps k spec))) none) s
    Shows k after.1 (stored after.2) ∧ Json.Written changed (stored s) (stored after.2)
  patchesStatus (s : σ) (status : Status) :
    let after := meaning
      (.send (.patchStatus c.endpoint name (.merge status.patchBody)) none) s
    Shows k after.1 (stored after.2) ∧
      Json.Written (stored s) (status.patchBody.merge (stored s)) (stored after.2)

namespace Keeps

variable {c : Instances k} {name : String} {meaning : Meaning σ} {stored : σ → Json}

/-! ### The three writes -/

/-- A patch of the status of a stored object changes its status alone, and yields the object
afterwards. -/
theorem run_patchStatus (h : c.Keeps name meaning stored) (hr : c.Reaches name) {s : σ}
    (hobject : ∃ members, stored s = .object members) {o : Object k}
    (ho : ofJson (Object.decode k) (stored s) = .ok o) (status : Status) :
    ∃ o', ((c.patchStatus name status).run.run meaning s).1 = .ok o' ∧
      ofJson (Object.decode k) (stored ((c.patchStatus name status).run.run meaning s).2) =
        .ok o' ∧
      o'.spec = o.spec ∧ o'.status = some status ∧ o'.metadata.kept = o.metadata.kept := by
  obtain ⟨members, hmembers⟩ := hobject
  obtain ⟨hshows, hwritten⟩ := h.patchesStatus s status
  rw [hmembers] at ho hwritten
  obtain ⟨hmetadata, hspec, hstatus⟩ := Object.ofJson_object_iff.mp ho
  obtain ⟨changed, hchanged, hmerged⟩ := status.readsStatus_merged hstatus
  rw [hchanged] at hwritten
  obtain ⟨m, hread, hkept⟩ := Object.ofJson_of_written hwritten hmetadata hspec hmerged
  refine ⟨{ metadata := m, spec := o.spec, status := some status }, ?_⟩
  rw [show c.patchStatus name status = Task.request (Object.decode k)
      (.patchStatus c.endpoint name (.merge status.patchBody)) from rfl,
    Task.run_request_of_understood (hr.check_status _) ((hshows _).mpr hread)]
  exact ⟨rfl, hread, rfl, rfl, hkept⟩

/-- A patch of the spec of a stored object changes its spec alone. -/
theorem patchSpec_answered (h : c.Keeps name meaning stored) {s : σ}
    (hobject : ∃ members, stored s = .object members) {o : Object k}
    (ho : ofJson (Object.decode k) (stored s) = .ok o) (spec : k.Spec) :
    let after := meaning (.send (.patch c.endpoint name (.json (Spec.patchOps k spec))) none) s
    (∃ members, stored after.2 = .object members) ∧
      ∃ o', Task.understood (Answer.decode (Object.decode k)) after.1 = .ok o' ∧
        ofJson (Object.decode k) (stored after.2) = .ok o' ∧
        o'.spec = spec ∧ o'.metadata.kept = o.metadata.kept := by
  obtain ⟨members, hmembers⟩ := hobject
  have hpatches := h.patches s spec
  rw [hmembers] at ho hpatches
  obtain ⟨hmetadata, hspec, hstatus⟩ := Object.ofJson_object_iff.mp ho
  obtain ⟨changed, hchanged, hreplaced, hothers⟩ := Spec.exists_replaced spec hspec
  obtain ⟨hshows, hwritten⟩ := hpatches _ hchanged
  rw [← hothers "metadata" (by decide)] at hmetadata
  obtain ⟨m, hread, hkept⟩ := Object.ofJson_of_written hwritten hmetadata hreplaced hstatus
  exact ⟨hwritten.isObject, _, (hshows _).mpr hread, hread, rfl, hkept⟩

/-- A stored object can be replaced by itself with another spec. The status stays, and the metadata
is written anew. -/
theorem replace_answered (h : c.Keeps name meaning stored) {s : σ}
    (hobject : ∃ members, stored s = .object members) {o : Object k}
    (ho : ofJson (Object.decode k) (stored s) = .ok o) (spec : k.Spec)
    (status : Option Status) :
    let after := meaning
      (.send (.replace c.endpoint name ({ o with spec, status } : Object k).encode) none) s
    (∃ members, stored after.2 = .object members) ∧
      ∃ o', Task.understood (Answer.decode (Object.decode k)) after.1 = .ok o' ∧
        ofJson (Object.decode k) (stored after.2) = .ok o' ∧
        o'.spec = spec ∧ o'.metadata.kept = o.metadata.toSecond.kept := by
  obtain ⟨members, hmembers⟩ := hobject
  have hreplaces := h.replaces s { o with spec, status } (h.named s o ho)
  rw [hmembers] at ho hreplaces
  obtain ⟨⟨value, hvalue, hmetadata⟩, -, hstatus⟩ := Object.ofJson_object_iff.mp ho
  have hversion := Object.resourceVersion_of_ofJson ho
  obtain ⟨hshows, hwritten⟩ := hreplaces hversion
  have hmetadata' : Object.ReadsMetadata
      (({ o with spec, status } : Object k).encode.valuesOf "metadata") o.metadata.toSecond :=
    ⟨_, Object.valuesOf_metadata_encode _, (Metadata.stable_decode _).read hmetadata⟩
  have hspec' : Object.ReadsSpec
      (({ o with spec, status } : Object k).encode.valuesOf "spec") spec :=
    ⟨_, Object.valuesOf_spec_encode _, Spec.decode_encode k spec⟩
  obtain ⟨m, hread, hkept⟩ := Object.ofJson_of_written hwritten hmetadata' hspec' hstatus
  exact ⟨hwritten.isObject, _, (hshows _).mpr hread, hread, rfl, hkept⟩

/-! ### The two ways -/

/-- **Patching the spec and the status** of a stored object succeeds and changes nothing else. -/
theorem run_patchSpecAndStatus (h : c.Keeps name meaning stored) (hr : c.Reaches name) {s : σ}
    (hobject : ∃ members, stored s = .object members) {o : Object k}
    (ho : ofJson (Object.decode k) (stored s) = .ok o) (spec : k.Spec) (status : Status) :
    let result := (c.patchSpecAndStatus name spec status).run.run meaning s
    ∃ o', result.1 = .ok o' ∧ ofJson (Object.decode k) (stored result.2) = .ok o' ∧
      o'.spec = spec ∧ o'.status = some status ∧ o'.metadata.kept = o.metadata.kept := by
  obtain ⟨hobject₁, o₁, hanswer, hread, hspec, hkept⟩ := h.patchSpec_answered hobject ho spec
  obtain ⟨o', hvalue, hafter, hspec', hstatus, hkept'⟩ :=
    h.run_patchStatus hr hobject₁ hread status
  have hrun := Task.run_request_bind_of_understood (hr.check_item (.inl rfl) rfl) hanswer
    fun _ => c.patchStatus name status
  rw [← hrun] at hvalue hafter
  exact ⟨o', hvalue, hafter, hspec'.trans hspec, hstatus, hkept'.trans hkept⟩

/-- **Reading and replacing** a stored object succeeds and changes nothing else, but for fractions
of seconds in its timestamps. -/
theorem run_updateSpecAndStatus (h : c.Keeps name meaning stored) (hr : c.Reaches name) {s : σ}
    (hobject : ∃ members, stored s = .object members) {o : Object k}
    (ho : ofJson (Object.decode k) (stored s) = .ok o) (spec : k.Spec) (status : Status) :
    let result := (c.updateSpecAndStatus name spec status).run.run meaning s
    ∃ o', result.1 = .ok o' ∧ ofJson (Object.decode k) (stored result.2) = .ok o' ∧
      o'.spec = spec ∧ o'.status = some status ∧
      o'.metadata.kept = o.metadata.toSecond.kept := by
  obtain ⟨hshows, hsame⟩ := h.reads s
  have hname := h.named s o ho
  have hanswer := (hshows o).mpr ho
  rw [← hsame] at hobject ho
  obtain ⟨hobject₁, o₁, hanswer₁, hread, hspec, hkept⟩ :=
    h.replace_answered hobject ho spec (some status)
  obtain ⟨o', hvalue, hafter, hspec', hstatus, hkept'⟩ :=
    h.run_patchStatus hr hobject₁ hread status
  have hupdate := c.update_of_name (o := { o with spec, status := some status }) hname
  have hreplaced := Task.run_request_bind_of_understood (hr.check_item (.inl rfl) rfl) hanswer₁
    fun _ => c.patchStatus name status
  have hrun : (c.updateSpecAndStatus name spec status).run.run meaning s =
      (c.update { o with spec, status := some status } >>= fun _ =>
        c.patchStatus name status).run.run meaning
          (meaning (.send (.read c.endpoint name) none) s).2 :=
    Task.run_request_bind_of_understood (hr.check_item (.inr rfl) rfl) hanswer _
  rw [← hupdate] at hreplaced
  rw [← hreplaced, ← hrun] at hvalue hafter
  exact ⟨o', hvalue, hafter, hspec'.trans hspec, hstatus, hkept'.trans hkept⟩

end Keeps

/-! ### A server that keeps an instance -/

/-- **The small server keeps its instance.** -/
theorem keeps_shelf (c : Instances k) (name : String) :
    c.Keeps name Shelf.perform fun s : Shelf name => s.document where
  named s o ho := s.name_of_ofJson ho
  reads s := ⟨s.shows_answer k, rfl⟩
  replaces s o hname hversion := by
    have hrespond : s.respond (.replace c.endpoint name o.encode) =
        s.settle (s.write? o.encode s.document) :=
      if_pos (o.version?_encode.trans hversion)
    have hcarries : ∀ value, o.encode.valuesOf "metadata" = [value] →
        value.valuesOf "name" = [.string name] := by
      intro value hvalue
      rw [Object.valuesOf_metadata_encode] at hvalue
      obtain rfl := List.singleton_injective hvalue
      have hvalues := o.metadata.valuesOf_encode .name
      rw [show Metadata.form.values o.metadata .name = some (.string name) from
        congrArg (Option.map Json.string) hname] at hvalues
      exact hvalues
    have hsettled := Shelf.settled k (s.exists_write?_encode o) hcarries
    rwa [← hrespond] at hsettled
  patches s spec changed hchanged := by
    have hrespond : s.respond (.patch c.endpoint name (.json (Spec.patchOps k spec))) =
        s.settle (s.write? changed s.document) := by
      change s.settle ((Json.replaceAt? "/spec" (Spec.encode k spec).sorted s.document).bind _) = _
      rw [hchanged]
      rfl
    have hself : changed.valuesOf "spec" =
        (Spec.encode k spec).sorted :: (s.document.valuesOf "spec").tail :=
      (Json.valuesOf_replaceAt? Spec.pointer?_patchOps hchanged).1
    have hmetadata : changed.valuesOf "metadata" = s.document.valuesOf "metadata" :=
      (Json.valuesOf_replaceAt? Spec.pointer?_patchOps hchanged).2 _ (by decide)
    have hspec : ∀ value ∈ changed.valuesOf "spec", value.isExact = true := by
      intro value hvalue
      rw [hself] at hvalue
      obtain rfl | hvalue := List.mem_cons.mp hvalue
      · exact Spec.isExact_sorted_encode k spec
      · exact s.isExact_of_mem (List.mem_of_mem_tail hvalue)
    have hwrite := s.exists_write?_of_metadata hmetadata hspec fun value => s.isExact_of_mem
    have hsettled := Shelf.settled k hwrite (s.name_of_metadata hmetadata)
    rwa [← hrespond] at hsettled
  patchesStatus s status := by
    have hexact : (status.patchBody.merge s.document).isExact = true :=
      Json.isExact_merge status.patchBody s.document rfl s.isExact
    have hwrite := s.exists_write?_of_metadata rfl (fun value => s.isExact_of_mem) fun value =>
      Json.isExact_of_mem_valuesOf hexact
    exact Shelf.settled k hwrite (s.name_of_metadata rfl)

/-! ### Both ways together -/

/-- **The two ways to write an instance agree.** Whatever object has been stored, both ways succeed
and yield the object that is stored afterwards, with the spec and the status that were to be written
and the metadata that it had, up to what the apiserver maintains. When the instance is replaced,
fractions of seconds are cut off its timestamps. -/
theorem writes_agree {c : Instances k} {name : String} {meaning : Meaning σ} {stored : σ → Json}
    (h : c.Keeps name meaning stored) (hr : c.Reaches name) {s : σ}
    (hobject : ∃ members, stored s = .object members) {o : Object k}
    (ho : ofJson (Object.decode k) (stored s) = .ok o) (spec : k.Spec) (status : Status) :
    let updated := (c.updateSpecAndStatus name spec status).run.run meaning s
    let patched := (c.patchSpecAndStatus name spec status).run.run meaning s
    ∃ o₁ o₂, updated.1 = .ok o₁ ∧ ofJson (Object.decode k) (stored updated.2) = .ok o₁ ∧
      patched.1 = .ok o₂ ∧ ofJson (Object.decode k) (stored patched.2) = .ok o₂ ∧
      (o₁.spec = spec ∧ o₁.status = some status) ∧ (o₂.spec = spec ∧ o₂.status = some status) ∧
      o₂.metadata.kept = o.metadata.kept ∧ o₁.metadata.kept = o.metadata.toSecond.kept ∧
      ((∀ t ∈ o.metadata.creationTimestamp, t.time.nanosecond = 0) →
        (∀ t ∈ o.metadata.deletionTimestamp, t.time.nanosecond = 0) →
        o₁.metadata.kept = o.metadata.kept) := by
  obtain ⟨o₁, hvalue₁, hread₁, hspec₁, hstatus₁, hkept₁⟩ :=
    h.run_updateSpecAndStatus hr hobject ho spec status
  obtain ⟨o₂, hvalue₂, hread₂, hspec₂, hstatus₂, hkept₂⟩ :=
    h.run_patchSpecAndStatus hr hobject ho spec status
  refine ⟨o₁, o₂, hvalue₁, hread₁, hvalue₂, hread₂, ⟨hspec₁, hstatus₁⟩, ⟨hspec₂, hstatus₂⟩,
    hkept₂, hkept₁, fun hcreated hdeleted => ?_⟩
  exact hkept₁.trans (Metadata.kept_toSecond hcreated hdeleted)

theorem writes_agree_afternoon : ∃ o o₁ o₂,
    samples.Keeps "x" Shelf.perform (fun s : Shelf "x" => s.document) ∧ samples.Reaches "x" ∧
    ofJson (Object.decode .test) Shelf.afternoon.document = .ok o ∧
    ((samples.updateSpecAndStatus "x" ⟨"bye", false⟩ Status.processed).run.run Shelf.perform
      Shelf.afternoon).1 = .ok o₁ ∧
    ((samples.patchSpecAndStatus "x" ⟨"bye", false⟩ Status.processed).run.run Shelf.perform
      Shelf.afternoon).1 = .ok o₂ ∧
    (o₁.spec = ⟨"bye", false⟩ ∧ o₁.status = some Status.processed) ∧
    (o₂.spec = ⟨"bye", false⟩ ∧ o₂.status = some Status.processed) ∧
    o₂.metadata.kept = o.metadata.kept ∧ o₁.metadata.kept = o.metadata.toSecond.kept := by
  obtain ⟨o, ho, -⟩ := Shelf.exists_of_afternoon
  have hkeeps := keeps_shelf samples "x"
  obtain ⟨o₁, o₂, hvalue₁, -, hvalue₂, -, hwritten₁, hwritten₂, hkept₂, hkept₁, -⟩ :=
    writes_agree hkeeps reaches_samples ⟨_, rfl⟩ ho ⟨"bye", false⟩ Status.processed
  exact ⟨o, o₁, o₂, hkeeps, reaches_samples, ho, hvalue₁, hvalue₂, hwritten₁, hwritten₂, hkept₂,
    hkept₁⟩

/-- The half second is lost when the instance is replaced. -/
theorem replacement_loses_fraction : ∃ o o₁ : Object .test,
    samples.Keeps "x" Shelf.perform (fun s : Shelf "x" => s.document) ∧ samples.Reaches "x" ∧
    ofJson (Object.decode .test) Shelf.afternoon.document = .ok o ∧
    ((samples.updateSpecAndStatus "x" ⟨"bye", false⟩ Status.processed).run.run Shelf.perform
      Shelf.afternoon).1 = .ok o₁ ∧
    o₁.metadata.kept ≠ o.metadata.kept := by
  obtain ⟨o, ho, t, ht, hfraction⟩ := Shelf.exists_of_afternoon
  have hkeeps := keeps_shelf samples "x"
  obtain ⟨o₁, hvalue, -, -, -, hkept⟩ := hkeeps.run_updateSpecAndStatus reaches_samples ⟨_, rfl⟩ ho
    ⟨"bye", false⟩ Status.processed
  refine ⟨o, o₁, hkeeps, reaches_samples, ho, hvalue, fun hsame => ?_⟩
  have hcreated : o.metadata.creationTimestamp.map Timestamp.toSecond =
      o.metadata.creationTimestamp :=
    congrArg Metadata.creationTimestamp (hkept.symm.trans hsame)
  have hzero : t.time.nanosecond = 0 :=
    Timestamp.toSecond_eq_self_iff.mp (map_eq_self_iff.mp hcreated t ht)
  omega

end CustomResource.Instances
