import CustomResource.Proofs.Client.Agreement

/-!
# What an update changes

An update reads an instance, writes it back with another spec and another status, and then sets its
status. The object that is written back was decoded from the answer of someone else, so all that it
had besides is sent again only as far as it has been decoded and is encoded. Here is what an update
sends in any world: how far it comes, what it yields where it stops, and what can be read from the
body of the replacement.

## Main definitions

* `Instances.Attempt`: what became of one request that is answered by an instance.
* `Instances.Gives`: an exchange in which an instance was answered.
* `Instances.Updated`: what became of an update.
* `Object.rewritten`: an object with another spec and status.

## Main results

* `Instances.updated`: an update ends in one of the ways that `Updated` lists.
* `Instances.Updated.sent_prefix`, `Updated.pairwise_gives`: how far it has come.
* `Instances.replace_mem_sent`: an instance that was read is written back under its name.
* `Object.ofText_rewritten`: what can be read from the body of the replacement.
* `Instances.update_changes_spec_and_status`: all of this together.
-/

namespace CustomResource

open Decoder

/-! ### The body of the replacement -/

/-- What is understood of an answer is read from a text. -/
theorem Task.exists_text_of_understood {α : Type} {decoder : Decoder α} {answer : Option Answer}
    {value : α} (h : understood (Answer.decode decoder) answer = .ok value) :
    ∃ text, ofText decoder text = .ok value := by
  cases answer with
  | none => exact nomatch h
  | some a =>
    change Answer.decode decoder a = .ok value at h
    rw [Answer.decode] at h
    cases htext : a.text with
    | error e => simp [htext] at h
    | ok text =>
      rw [htext] at h
      cases hread : ofText decoder text with
      | error e => simp [hread, Except.mapError] at h
      | ok value' => exact ⟨text, by simpa [hread, Except.mapError] using h⟩

namespace Object

variable {k : Kind}

/-- An object with another spec and status. -/
def rewritten (o : Object k) (spec : k.Spec) (status : Status) : Object k :=
  { o with spec, status := some status }

/-- What is written for an object is read, if its metadata is. -/
theorem ofJson_encode {o : Object k} {m : Metadata}
    (h : Metadata.decode innerDepth o.metadata.encode.toNode = .ok m) :
    ofJson (decode k) o.encode = .ok { o with metadata := m } := by
  refine (form k).strict_encode (b := { o with metadata := m }) descend_startDepth fun f => ?_
  cases f with
  | metadata => exact .some h
  | spec => exact .some (Spec.decode_encode k o.spec)
  | status =>
    change Option.Rel _ (o.status.map Status.encode) (o.status.map some)
    cases o.status with
    | none => exact .none
    | some s =>
      have hread : Status.decode innerDepth s.encode.toNode = .ok s := s.decode_encode rfl
      exact .some (optional_eq_some (show s.encode ≠ .null by nofun) hread)

/-- **An object that has been read can be written** with another spec and status. All of it is read
again, to the second. -/
theorem ofText_rewritten {text : String} {o : Object k} (h : ofText (decode k) text = .ok o)
    (ho : o.metadata.hasNoDoubles = true) (spec : k.Spec) (status : Status) :
    ofText (decode k) (o.rewritten spec status).encode.render =
      .ok (o.toSecond.rewritten spec status) := by
  obtain ⟨left, hdepth, child, hmem, hchild⟩ := exists_metadata_of_decode (ofText_eq_ok h)
  obtain rfl := Except.ok.inj (descend_startDepth.symm.trans hdepth)
  have hrange := (Json.Document.inRange_ofText text).of_mem_children hmem
  have hexact : (o.rewritten spec status).encode.isExact = true :=
    isExact_encode (Metadata.isExact_of_decode hrange hchild ho)
  rw [ofText_render hexact]
  exact ofJson_encode ((Metadata.stable_decode _).read hchild)

end Object

namespace Instances

variable {k : Kind} {σ β : Type}

/-! ### One request -/

/-- What became of a request that is to be answered by an instance: it could not be sent, or it was
answered in some way. -/
inductive Attempt (k : Kind) (r : Request) :
    List Program.Performed → Except Api.Error (Object k) → Prop
  | unsendable {fault : Api.Error} (h : r.check = .error fault) : Attempt k r [] (.error fault)
  | answered (h : r.check = .ok ()) (answer : Option Answer) :
    Attempt k r [⟨.send r none, answer⟩]
      (Task.understood (Answer.decode (Object.decode k)) answer)

/-- An exchange in which an instance was answered. -/
def Gives (k : Kind) (x : Program.Performed) : Prop :=
  ∃ r answer, x = ⟨.send r none, answer⟩ ∧
    ∃ o, Task.understood (Answer.decode (Object.decode k)) answer = .ok o

namespace Attempt

variable {r : Request} {path : List Program.Performed} {outcome : Except Api.Error (Object k)}

/-- **A request and what comes after it**: only if the request yields an instance, something comes
after it. -/
theorem cases_of_bind (r : Request) (f : Object k → Task β) (meaning : Meaning σ) (s : σ) :
    let p := (request r >>= f).run
    (∃ path e, Attempt k r path (.error e) ∧ p.trace meaning s = path ∧
      (p.run meaning s).1 = .error (.request e)) ∨
    ∃ path o s', Attempt k r path (.ok o) ∧
      p.trace meaning s = path ++ (f o).run.trace meaning s' ∧
      (p.run meaning s).1 = ((f o).run.run meaning s').1 := by
  intro p
  cases hr : r.check with
  | error fault =>
    have hp : p = _ := Task.run_request_bind_of_fault hr f
    rw [hp]
    exact .inl ⟨[], fault, .unsendable hr, rfl, rfl⟩
  | ok =>
    let answer : Option Answer := (meaning (.send r none) s).1
    let next := Task.proceed f (Task.understood (Answer.decode (Object.decode k)) answer)
    have hattempt := Attempt.answered (k := k) hr answer
    have hp : p = _ := Task.run_request_bind hr f
    have htrace : p.trace meaning s =
        ⟨.send r none, answer⟩ :: next.trace meaning (meaning (.send r none) s).2 := by
      rw [hp]
      rfl
    have hrun : p.run meaning s = next.run meaning (meaning (.send r none) s).2 := by
      rw [hp]
      rfl
    rw [htrace, hrun]
    unfold next
    generalize Task.understood (Answer.decode (Object.decode k)) answer = outcome at hattempt ⊢
    cases outcome with
    | error e => exact .inl ⟨_, e, hattempt, rfl, rfl⟩
    | ok o => exact .inr ⟨_, o, _, hattempt, rfl, rfl⟩

/-- A request after which nothing comes. -/
theorem exists_of_request (r : Request) (meaning : Meaning σ) (s : σ) :
    let p := (request (k := k) r).run
    ∃ outcome, Attempt k r (p.trace meaning s) outcome ∧
      (p.run meaning s).1 = outcome.mapError .request := by
  have hcases := cases_of_bind r (pure : Object k → Task _) meaning s
  rw [bind_pure] at hcases
  obtain ⟨path, e, hattempt, htrace, hrun⟩ | ⟨path, o, s', hattempt, htrace, hrun⟩ := hcases
  · exact ⟨.error e, htrace.symm ▸ hattempt, hrun⟩
  · exact ⟨.ok o, (htrace.trans (List.append_nil path)).symm ▸ hattempt, hrun⟩

/-- What has been sent is the request, if it could be sent. -/
theorem sent_prefix (h : Attempt k r path outcome) :
    path.filterMap Program.Performed.request? <+: [r] := by
  cases h with
  | unsendable _ => exact List.nil_prefix
  | answered _ _ => exact List.prefix_rfl

/-- A request that yields an instance has been sent. -/
theorem sent_of_ok {o : Object k} (h : Attempt k r path (.ok o)) :
    path.filterMap Program.Performed.request? = [r] ∧ ∀ x ∈ path, Gives k x := by
  generalize houtcome : Except.ok o = outcome at h
  cases h with
  | unsendable _ => exact nomatch houtcome
  | answered _ answer => exact ⟨rfl, by simpa using ⟨r, answer, rfl, o, houtcome.symm⟩⟩

theorem pairwise_gives (h : Attempt k r path outcome) :
    path.Pairwise fun x _ => Gives k x := by
  cases h with
  | unsendable _ => exact .nil
  | answered _ _ => exact List.pairwise_singleton _ _

/-- The instance that a request yields has been read from a text. -/
theorem exists_text {o : Object k} (h : Attempt k r path (.ok o)) :
    ∃ text, ofText (Object.decode k) text = .ok o := by
  generalize houtcome : Except.ok o = outcome at h
  cases h with
  | unsendable _ => exact nomatch houtcome
  | answered _ answer => exact Task.exists_text_of_understood houtcome.symm

end Attempt

/-! ### One after another -/

/-- What became of an update: what it has exchanged, and what it yields.

* `unread`: the instance could not be read.
* `nameless`: it was read, and has no name under which to write it back.
* `unreplaced`: it was read, and could not be written back under its name.
* `replaced`: it was read and written back, and the answer to the patch of its status decides. -/
inductive Updated (c : Instances k) (name : String) (spec : k.Spec) (status : Status) :
    List Program.Performed → Except Error (Object k) → Prop
  | unread {path : List Program.Performed} {e : Api.Error}
    (hread : Attempt k (.read c.endpoint name) path (.error e)) :
    Updated c name spec status path (.error (.request e))
  | nameless {path : List Program.Performed} {o : Object k}
    (hread : Attempt k (.read c.endpoint name) path (.ok o)) (hname : o.metadata.name = none) :
    Updated c name spec status path (.error .missingName)
  | unreplaced {path₁ path₂ : List Program.Performed} {o : Object k} {target : String}
    {e : Api.Error} (hread : Attempt k (.read c.endpoint name) path₁ (.ok o))
    (hname : o.metadata.name = some target)
    (hreplace : Attempt k (.replace c.endpoint target (o.rewritten spec status).encode) path₂
      (.error e)) :
    Updated c name spec status (path₁ ++ path₂) (.error (.request e))
  | replaced {path₁ path₂ path₃ : List Program.Performed} {o o' : Object k} {target : String}
    {outcome : Except Api.Error (Object k)}
    (hread : Attempt k (.read c.endpoint name) path₁ (.ok o))
    (hname : o.metadata.name = some target)
    (hreplace : Attempt k (.replace c.endpoint target (o.rewritten spec status).encode) path₂
      (.ok o'))
    (hpatch : Attempt k (.patchStatus c.endpoint name (.merge status.patchBody)) path₃ outcome) :
    Updated c name spec status (path₁ ++ (path₂ ++ path₃)) (outcome.mapError .request)

theorem updateSpecAndStatus_eq (c : Instances k) (name : String) (spec : k.Spec)
    (status : Status) : c.updateSpecAndStatus name spec status =
      request (.read c.endpoint name) >>= fun o => c.update (o.rewritten spec status) >>= fun _ =>
        c.patchStatus name status := rfl

/-- **How an update ends** in any world. -/
theorem updated (c : Instances k) (name : String) (spec : k.Spec) (status : Status)
    (meaning : Meaning σ) (s : σ) :
    let p := (c.updateSpecAndStatus name spec status).run
    c.Updated name spec status (p.trace meaning s) (p.run meaning s).1 := by
  intro p
  obtain ⟨path₁, e, hread, htrace₁, hrun₁⟩ | ⟨path₁, o, s₁, hread, htrace₁, hrun₁⟩ :=
    Attempt.cases_of_bind (.read c.endpoint name)
      (fun o => c.update (o.rewritten spec status) >>= fun _ => c.patchStatus name status) meaning s
  · rw [show p.trace meaning s = path₁ from htrace₁, show (p.run meaning s).1 = _ from hrun₁]
    exact .unread hread
  rw [show p.trace meaning s = path₁ ++ _ from htrace₁, show (p.run meaning s).1 = _ from hrun₁]
  cases hname : (o.rewritten spec status).metadata.name with
  | none =>
    rw [update, hname]
    exact (List.append_nil path₁).symm ▸ .nameless hread hname
  | some target =>
    rw [c.update_of_name hname]
    obtain ⟨path₂, e, hreplace, htrace₂, hrun₂⟩ | ⟨path₂, o', s₂, hreplace, htrace₂, hrun₂⟩ :=
      Attempt.cases_of_bind (.replace c.endpoint target (o.rewritten spec status).encode)
        (fun _ => c.patchStatus name status) meaning s₁
    · rw [request] at htrace₂ hrun₂
      rw [htrace₂, hrun₂]
      exact .unreplaced hread hname hreplace
    · rw [request] at htrace₂ hrun₂
      obtain ⟨outcome, hpatch, hrun₃⟩ := Attempt.exists_of_request (k := k)
        (.patchStatus c.endpoint name (.merge status.patchBody)) meaning s₂
      rw [htrace₂, hrun₂, patchStatus, hrun₃]
      exact .replaced hread hname hreplace hpatch

/-- An instance that was read is written back under its name. -/
theorem replace_mem_sent (c : Instances k) {name target : String} {spec : k.Spec} {status : Status}
    {meaning : Meaning σ} {s : σ} {o : Object k}
    (hread : (Request.read c.endpoint name).check = .ok ())
    (hanswer : Task.understood (Answer.decode (Object.decode k))
      (meaning (.send (.read c.endpoint name) none) s).1 = .ok o)
    (hname : o.metadata.name = some target)
    (hreplace : (Request.replace c.endpoint target (o.rewritten spec status).encode).check =
      .ok ()) :
    .replace c.endpoint target (o.rewritten spec status).encode ∈
      (c.updateSpecAndStatus name spec status).run.sent meaning s := by
  have hrun := Task.run_request_of_understood hread hanswer
  rw [updateSpecAndStatus_eq, request, ExceptT.run_bind, Program.sent_bind, hrun]
  refine List.mem_append_right _ ?_
  change _ ∈ (c.update (o.rewritten spec status) >>= fun _ =>
    c.patchStatus name status).run.sent _ _
  rw [c.update_of_name (show (o.rewritten spec status).metadata.name = some target from hname),
    ExceptT.run_bind, Program.sent_bind, Task.request, Task.sent_call, hreplace]
  exact List.mem_append_left _ (List.mem_singleton_self _)

namespace Updated

variable {c : Instances k} {name : String} {spec : k.Spec} {status : Status}
  {path : List Program.Performed} {result : Except Error (Object k)}

/-- What has been sent is a beginning of three requests. -/
theorem sent_prefix (h : c.Updated name spec status path result) : ∃ target content,
    path.filterMap Program.Performed.request? <+: [.read c.endpoint name,
      .replace c.endpoint target content,
      .patchStatus c.endpoint name (.merge status.patchBody)] := by
  cases h with
  | unread hread => exact ⟨name, .null, hread.sent_prefix.trans (List.prefix_append _ _)⟩
  | nameless hread _ =>
    rw [hread.sent_of_ok.1]
    exact ⟨name, .null, List.prefix_append _ _⟩
  | @unreplaced _ _ o target _ hread _ hreplace =>
    refine ⟨target, (o.rewritten spec status).encode, ?_⟩
    rw [List.filterMap_append, hread.sent_of_ok.1]
    exact (List.prefix_append_right_inj _).mpr
      (hreplace.sent_prefix.trans (List.prefix_append _ _))
  | @replaced _ _ _ o _ target _ hread _ hreplace hpatch =>
    refine ⟨target, (o.rewritten spec status).encode, ?_⟩
    rw [List.filterMap_append, List.filterMap_append, hread.sent_of_ok.1, hreplace.sent_of_ok.1]
    exact (List.prefix_append_right_inj _).mpr
      ((List.prefix_append_right_inj _).mpr hpatch.sent_prefix)

/-- Only after an exchange in which an instance was answered there is another one. -/
theorem pairwise_gives (h : c.Updated name spec status path result) :
    path.Pairwise fun x _ => Gives k x := by
  cases h with
  | unread hread => exact hread.pairwise_gives
  | nameless hread _ => exact hread.pairwise_gives
  | unreplaced hread _ hreplace =>
    exact List.pairwise_append.mpr
      ⟨hread.pairwise_gives, hreplace.pairwise_gives, fun x hx _ _ => hread.sent_of_ok.2 x hx⟩
  | replaced hread _ hreplace hpatch =>
    have hlast := List.pairwise_append.mpr
      ⟨hreplace.pairwise_gives, hpatch.pairwise_gives, fun x hx _ _ => hreplace.sent_of_ok.2 x hx⟩
    exact List.pairwise_append.mpr
      ⟨hread.pairwise_gives, hlast, fun x hx _ _ => hread.sent_of_ok.2 x hx⟩

end Updated

/-! ### All of it together -/

/-- **An update changes nothing but spec and status**, and stops at the first failure. In any world
it ends in one of the ways of `Updated`; its requests are a beginning of reading, replacing and
patching the status, each made only after an instance was answered to the one before. What can be
read from the replacement is what was answered, with the new spec and status and without the
fractions of seconds in its timestamps. Doubles among the fields that managers own are left out. -/
theorem update_changes_spec_and_status (c : Instances k) (name : String) (spec : k.Spec)
    (status : Status) (meaning : Meaning σ) (s : σ) :
    let p := (c.updateSpecAndStatus name spec status).run
    c.Updated name spec status (p.trace meaning s) (p.run meaning s).1 ∧
    (∃ target content, p.sent meaning s <+: [.read c.endpoint name,
      .replace c.endpoint target content,
      .patchStatus c.endpoint name (.merge status.patchBody)]) ∧
    (p.trace meaning s).Pairwise (fun x _ => Gives k x) ∧
    ∀ path o, Attempt k (.read c.endpoint name) path (.ok o) → o.metadata.hasNoDoubles = true →
      ofText (Object.decode k) (o.rewritten spec status).encode.render =
        .ok (o.toSecond.rewritten spec status) ∧
      (o.toSecond = o ↔ ∀ t ∈ o.metadata.timestamps, t.time.nanosecond = 0) := by
  have hupdated := c.updated name spec status meaning s
  refine ⟨hupdated, hupdated.sent_prefix, hupdated.pairwise_gives, fun path o hread ho => ?_⟩
  obtain ⟨text, htext⟩ := hread.exists_text
  exact ⟨Object.ofText_rewritten htext ho spec status, Object.toSecond_eq_self_iff⟩

/-- What is read of the sample that has been created half a second after noon. -/
theorem exists_read_of_afternoon : ∃ o : Object .test,
    Task.understood (Answer.decode (Object.decode .test))
      (Shelf.perform (.send (.read samples.endpoint "x") none) Shelf.afternoon).1 = .ok o ∧
    o.metadata.name = some "x" ∧ o.metadata.hasNoDoubles = true ∧
    ∃ t ∈ o.metadata.timestamps, t.time.nanosecond = 500000000 := by
  obtain ⟨o, ho, t, ht, hfraction⟩ := Shelf.exists_of_afternoon
  have hkeeps := keeps_shelf samples "x"
  have hplain : (ofJson (Object.decode .test) Shelf.afternoon.document).toOption.all
      (·.metadata.hasNoDoubles) = true := by decide +kernel
  rw [ho] at hplain
  have ht : t ∈ o.metadata.timestamps :=
    List.mem_append_left _ (List.mem_append_left _ (Option.mem_toList.mpr ht))
  exact ⟨o, ((hkeeps.reads Shelf.afternoon).1 o).mpr ho, hkeeps.named Shelf.afternoon o ho, hplain,
    t, ht, hfraction⟩

theorem update_changes_spec_and_status_afternoon : ∃ path, ∃ o : Object .test,
    Attempt .test (.read samples.endpoint "x") path (.ok o) ∧ o.metadata.hasNoDoubles = true ∧
    ofText (Object.decode .test) (o.rewritten ⟨"bye", false⟩ Status.processed).encode.render =
      .ok (o.toSecond.rewritten ⟨"bye", false⟩ Status.processed) := by
  obtain ⟨o, hanswer, -, hplain, -⟩ := exists_read_of_afternoon
  have hread := Attempt.answered (k := .test)
    (reaches_samples.check_item (.inr rfl) rfl : (Request.read samples.endpoint "x").check = .ok ())
    (Shelf.perform (.send (.read samples.endpoint "x") none) Shelf.afternoon).1
  rw [hanswer] at hread
  obtain ⟨-, -, -, hbody⟩ := update_changes_spec_and_status samples "x" ⟨"bye", false⟩
    Status.processed Shelf.perform Shelf.afternoon
  exact ⟨_, o, hread, hplain, (hbody _ o hread hplain).1⟩

/-- The half second is not in the replacement that is sent. -/
theorem replacement_omits_fraction : ∃ o : Object .test,
    Task.understood (Answer.decode (Object.decode .test))
      (Shelf.perform (.send (.read samples.endpoint "x") none) Shelf.afternoon).1 = .ok o ∧
    o.metadata.hasNoDoubles = true ∧
    .replace samples.endpoint "x" (o.rewritten ⟨"bye", false⟩ Status.processed).encode ∈
      (samples.updateSpecAndStatus "x" ⟨"bye", false⟩ Status.processed).run.sent Shelf.perform
        Shelf.afternoon ∧
    ofText (Object.decode .test) (o.rewritten ⟨"bye", false⟩ Status.processed).encode.render ≠
      .ok (o.rewritten ⟨"bye", false⟩ Status.processed) := by
  obtain ⟨o, hanswer, hname, hplain, t, ht, hfraction⟩ := exists_read_of_afternoon
  refine ⟨o, hanswer, hplain, ?_, fun hsame => ?_⟩
  · exact samples.replace_mem_sent (reaches_samples.check_item (.inr rfl) rfl) hanswer hname
      (reaches_samples.check_item (.inl rfl) rfl)
  · obtain ⟨text, htext⟩ := Task.exists_text_of_understood hanswer
    have hread := Object.ofText_rewritten htext hplain ⟨"bye", false⟩ Status.processed
    have hself : o.metadata.toSecond = o.metadata :=
      congrArg (fun o : Object .test => o.metadata) (Except.ok.inj (hread.symm.trans hsame))
    have hzero := Metadata.toSecond_eq_self_iff.mp hself t ht
    omega

end Instances

end CustomResource
