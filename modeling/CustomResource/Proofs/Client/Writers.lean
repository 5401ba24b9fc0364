import CustomResource.Proofs.Client.Shelf
import CustomResource.Proofs.Program.Interleaving

/-!
# Writers of one instance

Who replaces an instance has read it before, and in between others may have written it. The
apiserver tells by the version whether they have: it gives every write a version of its own, and
refuses a replacement that carries another version than the one that is stored. So it is enough that
an object is written with the version with which it was read. Then no write of anyone else is
undone, whatever the others do and in whatever order the requests come.

## Main definitions

* `Instances.Versioned`: a server that gives versions to what it stores, and insists on them.

## Main results

* `Instances.leads_update_replacement`: when an update replaces the instance.
* `Instances.Versioned.unchanged_or_fresh`: nothing has been written, or the version is a new one.
* `Instances.versioned_shelf`: there is such a server.
* `Instances.update_loses_nothing`: a replacement that is not refused replaces what has been read.
-/

namespace CustomResource.Instances

open Decoder Program

variable {k : Kind} {ι σ : Type}

/-! ### How far an update has come -/

section Update

variable {c : Instances k} {name : String} {spec : k.Spec} {status : Status}

/-- To set a status, nothing is replaced. -/
theorem performs_patchStatus (c : Instances k) (name : String) (status : Status) :
    (c.patchStatus name status).run.Performs fun action =>
      ∀ r limit, action = .send r limit → r.method ≠ .put := by
  refine (Calls.call _ _).performs (fun r limit h => ?_) fun level message r limit h => nomatch h
  injection h with hr
  rw [← hr]
  exact nofun

/-- **When an update replaces the instance**: it has read the instance and done nothing else, and
replaces what it has read under the name that this carries. -/
theorem leads_update_replacement {path : List Performed} {r : Request} {limit : Option Duration}
    {next : Option Answer → Program (Except Error (Object k))}
    (h : Leads (c.updateSpecAndStatus name spec status).run path (.perform (.send r limit) next))
    (hput : r.method = .put) :
    ∃ answer o target, path = [⟨.send (.read c.endpoint name) none, answer⟩] ∧
      Task.understood (Answer.decode (Object.decode k)) answer = .ok o ∧
      o.metadata.name = some target ∧
      Program.perform (.send r limit) next = (Task.request (Object.decode k) (.replace c.endpoint
        target ({ o with spec, status := some status } : Object k).encode) >>= fun _ =>
          c.patchStatus name status).run := by
  obtain ⟨-, hread⟩ | ⟨answer, rest, rfl, hrest⟩ := Task.leads_request_bind h
  · obtain ⟨rfl, -, -⟩ := Task.eq_of_request_bind hread.symm
    cases hput
  cases hanswer : Task.understood (Answer.decode (Object.decode k)) answer with
  | error e =>
    rw [hanswer] at hrest
    cases hrest.of_done.2
  | ok o =>
    rw [hanswer] at hrest
    cases htarget : o.metadata.name with
    | none =>
      have hupdate : c.update { o with spec, status := some status } = throw .missingName := by
        rw [update, htarget]
      change Leads (c.update { o with spec, status := some status } >>= _).run _ _ at hrest
      rw [hupdate] at hrest
      cases hrest.of_done.2
    | some target =>
      have hupdate := c.update_of_name (o := { o with spec, status := some status }) htarget
      change Leads (c.update { o with spec, status := some status } >>= _).run _ _ at hrest
      rw [hupdate] at hrest
      obtain ⟨rfl, hleft⟩ | ⟨answer', rest', rfl, hlater⟩ := Task.leads_request_bind hrest
      · exact ⟨answer, o, target, rfl, hanswer, htarget, hleft⟩
      · exfalso
        cases hanswer' : Task.understood (Answer.decode (Object.decode k)) answer' with
        | error e =>
          rw [hanswer'] at hlater
          cases hlater.of_done.2
        | ok o' =>
          rw [hanswer'] at hlater
          cases ((performs_patchStatus c name status).of_leads hlater).2 with
          | perform haction _ => exact haction r limit rfl hput

end Update

/-! ### Versions -/

/-- A server that stores an instance under the name that it carries, with a version. Every write
gives it a version that has not been used before, and a replacement that carries another version
than the one that is stored is refused with a conflict. What is read is what is stored. Nothing else
is assumed of what the server does. -/
structure Versioned (c : Instances k) (name : String) (meaning : Meaning σ) (stored : σ → Json)
    (used : σ → Set String) : Prop where
  named (s : σ) (o : Object k) (ho : ofJson (Object.decode k) (stored s) = .ok o) :
    o.metadata.name = some name
  current (s : σ) : ∃ version ∈ used s, (stored s).version? = some version
  fresh (action : Action) (s : σ) : used s ⊆ used (meaning action s).2 ∧
    (stored (meaning action s).2 = stored s ∨
      ∀ version ∈ used s, (stored (meaning action s).2).version? ≠ some version)
  reads (s : σ) : stored (meaning (.send (.read c.endpoint name) none) s).2 = stored s ∧
    ∀ o, Task.understood (Answer.decode (Object.decode k))
        (meaning (.send (.read c.endpoint name) none) s).1 = .ok o →
      ofJson (Object.decode k) (stored s) = .ok o
  conflicts (s : σ) (o : Object k) (version : String)
    (hversion : o.metadata.resourceVersion = some version)
    (hstale : (stored s).version? ≠ some version) :
    let after := meaning (.send (.replace c.endpoint name o.encode) none) s
    stored after.2 = stored s ∧ ∃ e, Task.understood (Answer.decode (Object.decode k)) after.1 =
      .error e ∧ e.code? = some 409

namespace Versioned

variable {c : Instances k} {name : String} {meaning : Meaning σ} {stored : σ → Json}
  {used : σ → Set String}

/-- What is read carries the version that is stored. -/
theorem resourceVersion_of_read (h : c.Versioned name meaning stored used) {s : σ} {o : Object k}
    (ho : ofJson (Object.decode k) (stored s) = .ok o) :
    o.metadata.resourceVersion = (stored s).version? := by
  obtain ⟨version, -, hversion⟩ := h.current s
  cases hdoc : stored s with
  | object members =>
    rw [hdoc] at ho
    exact Object.resourceVersion_of_ofJson ho
  | _ =>
    rw [hdoc] at hversion
    exact nomatch hversion

variable [DecidableEq ι] {α : Type} {programs left : ι → Program α} {s s' : σ}
  {turns : List (Turn ι σ)}

/-- **What turns make of the stored instance**: none of them has written it, or it has a version
that had not been used before them. -/
theorem unchanged_or_fresh (h : c.Versioned name meaning stored used)
    (hrun : Interleaves meaning programs s turns left s') :
    (stored s' = stored s ∧ ∀ t ∈ turns, stored t.after = stored t.before) ∨
      ∀ version ∈ used s, (stored s').version? ≠ some version := by
  induction hrun with
  | refl programs s => exact .inl ⟨rfl, List.forall_mem_nil _⟩
  | @turn programs left s s' turns i action next hnext _ ih =>
    obtain ⟨hused, hwritten⟩ := h.fresh action s
    obtain ⟨hsame, hturns⟩ | hfresh := ih
    · rw [hsame]
      obtain hunchanged | hwritten := hwritten
      · exact .inl ⟨hunchanged, List.forall_mem_cons.mpr ⟨hunchanged, hturns⟩⟩
      · exact .inr hwritten
    · -- what has been used before the first turn still is after it
      exact .inr fun version hversion => hfresh version (hused hversion)

/-- **What a replacement comes to** that carries the version that has been read, some turns ago. -/
theorem replaced_or_conflicts (h : c.Versioned name meaning stored used)
    (hrun : Interleaves meaning programs (meaning (.send (.read c.endpoint name) none) s).2 turns
      left s') {o : Object k} (ho : ofJson (Object.decode k) (stored s) = .ok o) (spec : k.Spec)
    (status : Option Status) :
    let after := meaning
      (.send (.replace c.endpoint name ({ o with spec, status } : Object k).encode) none) s'
    (o.metadata.resourceVersion = (stored s').version? ∧ stored s' = stored s ∧
        ∀ t ∈ turns, stored t.after = stored t.before) ∨
      (stored after.2 = stored s' ∧ ∃ e,
        Task.understood (Answer.decode (Object.decode k)) after.1 = .error e ∧
          e.code? = some 409) := by
  intro after
  have hversion := h.resourceVersion_of_read ho
  have hread := (h.reads s).1
  obtain ⟨hsame, hturns⟩ | hfresh := h.unchanged_or_fresh hrun
  · rw [hread] at hsame
    exact .inl ⟨by rw [hsame, hversion], hsame, hturns⟩
  · obtain ⟨version, hused, hcurrent⟩ := h.current
      (meaning (.send (.read c.endpoint name) none) s).2
    rw [hread, ← hversion] at hcurrent
    exact .inr (h.conflicts s' { o with spec, status } version hcurrent (hfresh version hused))

end Versioned

/-! ### A server that gives versions -/

/-- **The small server gives versions.** -/
theorem versioned_shelf (c : Instances k) (name : String) :
    c.Versioned name Shelf.perform (fun s : Shelf name => s.document) Shelf.versions where
  named s o ho := s.name_of_ofJson ho
  current s := ⟨Text.ofNat s.writes, ⟨s.writes, Nat.le_refl _, rfl⟩, s.version?_document⟩
  fresh action s := by
    obtain hsame | hwrites := s.perform_cases action
    · rw [hsame]
      exact ⟨Set.Subset.refl _, .inl rfl⟩
    · refine ⟨?_, .inr ?_⟩
      · rintro version ⟨i, hi, rfl⟩
        exact ⟨i, by omega, rfl⟩
      · rintro version ⟨i, hi, rfl⟩ hversion
        rw [Shelf.version?_document, Option.some.injEq] at hversion
        have hnumber := Text.ofNat_injective hversion
        omega
  reads s := ⟨rfl, fun o => (s.shows_answer k o).mp⟩
  conflicts s o version hversion hstale := by
    have hrespond : Shelf.perform (.send (.replace c.endpoint name o.encode) none) s =
        (some (.response 409 .empty), s) := by
      refine if_neg fun hsame => hstale ?_
      rw [← hsame, o.version?_encode, hversion]
    rw [hrespond]
    exact ⟨rfl, _, rfl, rfl⟩

/-! ### Updates among others -/

/-- **No update is lost.** Any programs run side by side, and one of them updates an instance. When
it replaces the instance, it has read it before, and replaces it by what it has read with the spec
and the status that are to be written. Either the version that it has read is still stored, and
nothing has been written in between; or the replacement is refused with a conflict and writes
nothing. And whenever the replacement is refused, this is what the update yields, and it does
nothing more. -/
theorem update_loses_nothing [DecidableEq ι] {c : Instances k} {name : String}
    {meaning : Meaning σ} {stored : σ → Json} {used : σ → Set String}
    (h : c.Versioned name meaning stored used)
    {programs left : ι → Program (Except Error (Object k))} {i : ι} {spec : k.Spec}
    {status : Status} (hi : programs i = (c.updateSpecAndStatus name spec status).run) {s s' : σ}
    {earlier later : List (Turn ι σ)} {put : Turn ι σ}
    (hrun : Interleaves meaning programs s (earlier ++ put :: later) left s')
    (hput : put.program = i) {r : Request} {limit : Option Duration} {answer : Option Answer}
    (hperformed : put.performed = ⟨.send r limit, answer⟩) (hmethod : r.method = .put) :
    ∃ first get between o answer', earlier = first ++ get :: between ∧ get.program = i ∧
      get.performed = ⟨.send (.read c.endpoint name) none, answer'⟩ ∧
      (∀ t ∈ between, t.program ≠ i) ∧
      Task.understood (Answer.decode (Object.decode k)) answer' = .ok o ∧
      ofJson (Object.decode k) (stored get.before) = .ok o ∧
      r = .replace c.endpoint name ({ o with spec, status := some status } : Object k).encode ∧
      ((o.metadata.resourceVersion = (stored put.before).version? ∧
          stored put.before = stored get.before ∧
          ∀ t ∈ between, stored t.after = stored t.before) ∨
        (stored put.after = stored put.before ∧
          ∃ e, Task.understood (Answer.decode (Object.decode k)) answer = .error e ∧
            e.code? = some 409)) ∧
      ∀ e, Task.understood (Answer.decode (Object.decode k)) answer = .error e →
        left i = .done (.error (.request e)) ∧ ∀ t ∈ later, t.program ≠ i := by
  obtain ⟨middle, m, hearlier, hlater⟩ := hrun.of_append
  cases hlater with
  | @turn _ _ _ _ _ j action next hnext hlater =>
    obtain rfl : i = j := hput.symm
    cases hperformed
    have hleads := hearlier.leads i
    rw [hi, hnext] at hleads
    obtain ⟨answer', o, target, hown, hanswer, htarget, hcall⟩ :=
      leads_update_replacement hleads hmethod
    obtain ⟨rfl, rfl, hproceed⟩ := Task.eq_of_request_bind hcall.symm
    obtain ⟨first, get, between, rfl, hget, hread, hbetween⟩ := exists_of_own_eq_singleton hown
    obtain ⟨_, m₀, -, hearlier⟩ := hearlier.of_append
    cases hearlier with
    | turn _ _ hearlier =>
      cases hread
      have ho := (h.reads m₀).2 o hanswer
      obtain rfl : target = name := Option.some.inj (htarget.symm.trans (h.named m₀ o ho))
      refine ⟨first, _, between, o, _, rfl, hget, rfl, hbetween, hanswer, ho, rfl,
        h.replaced_or_conflicts hearlier ho spec (some status), fun e he => ?_⟩
      have hover := hproceed (meaning (.send (.replace c.endpoint target
        ({ o with spec, status := some status } : Object k).encode) none) m).1
      rw [he] at hover
      exact (hlater.of_done ((Function.update_self _ _ _).trans hover)).symm

/-- Two programs that write the same sample: one updates it, the other one patches it. -/
def rivals : Bool → Program (Except Error (Object .test))
  | true => (samples.updateSpecAndStatus "x" ⟨"bye", false⟩ Status.processed).run
  | false => (samples.patchSpecAndStatus "x" ⟨"hi", true⟩ Status.pending).run

/-- The patch of the spec. -/
def rivalPatch : Action :=
  .send (.patch samples.endpoint "x" (.json (Spec.patchOps .test ⟨"hi", true⟩))) none

theorem writes_rivalPatch : (Shelf.perform rivalPatch Shelf.afternoon).2.writes = 7 := rfl

/-- The patch comes when the sample has been read and has not been replaced yet, so the update is
refused. -/
theorem update_refused_after_patch : ∃ turns left s' e,
    Interleaves Shelf.perform rivals Shelf.afternoon turns left s' ∧
      Api.Error.code? e = some 409 ∧ left true = .done (.error (.request e)) := by
  obtain ⟨o, ho, -⟩ := Shelf.exists_of_afternoon
  have hread := (Shelf.afternoon.shows_answer .test o).mpr ho
  have hname : o.metadata.name = some "x" := Shelf.afternoon.name_of_ofJson ho
  have hget : rivals true = .perform (.send (.read samples.endpoint "x") none) _ :=
    Task.run_request_bind (reaches_samples.check_item (.inr rfl) rfl) _
  have hpatch : rivals false = .perform rivalPatch _ :=
    Task.run_request_bind (reaches_samples.check_item (.inl rfl) rfl) _
  have hput := reaches_samples.run_update_bind
    (o := { o with spec := ⟨"bye", false⟩, status := some Status.processed }) hname
    fun _ => samples.patchStatus "x" Status.processed
  have hrun : Interleaves Shelf.perform rivals Shelf.afternoon ([_, _] ++ [_]) _ _ :=
    .turn true hget (.turn false ((Function.update_of_ne Bool.false_ne_true _ _).trans hpatch)
      (.turn true (by
        rw [Function.update_of_ne Bool.false_ne_true.symm, Function.update_self]
        exact (congrArg _ hread).trans hput) (.refl _ _)))
  obtain ⟨first, get, between, o', answer', hturns, -, -, -, -, -, -, hsettled, hrefused⟩ :=
    update_loses_nothing (versioned_shelf samples "x") (show rivals true = _ from rfl) hrun rfl
      rfl rfl
  obtain ⟨-, hsame, -⟩ | ⟨-, e, he, hconflict⟩ := hsettled
  · -- the patch has been counted since the sample was read
    have hbefore : get.before = Shelf.afternoon := by
      have hmem : get ∈ first ++ get :: between := List.mem_append_right _ List.mem_cons_self
      rw [← hturns, List.mem_pair] at hmem
      obtain rfl | rfl := hmem <;> rfl
    have hversion := congrArg Json.version? hsame
    rw [hbefore, Shelf.version?_document, Shelf.version?_document, Option.some.injEq] at hversion
    have hwrites : (Shelf.perform rivalPatch Shelf.afternoon).2.writes = 6 :=
      Text.ofNat_injective hversion
    rw [writes_rivalPatch] at hwrites
    exact nomatch hwrites
  · exact ⟨_, _, _, e, hrun, hconflict, (hrefused e he).1⟩

end CustomResource.Instances
