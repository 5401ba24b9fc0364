import CustomResource.Proofs.Program.Exchanges

/-!
# Calls

Most of what programs do is to make one request and to settle something by what was understood of
the answer, with messages on the way. Such a program is a call. What programs that consist of calls
exchange and yield is said once for each part, and put together by the rules for `>>=`.

## Main definitions

* `Program.Calls`: a program makes one request, and its value is settled by the answer.
* `Program.Called`: what a call has exchanged and yielded.
* `Program.Meets`: what a program exchanges and yields, whatever the world is like at its start.

## Main results

* `Program.Calls.called`: a call meets its description.
* `Program.Meets.bind`, `Program.Meets.bind_except`: one program after another.
-/

namespace CustomResource

namespace Program

variable {α β γ σ : Type} {clock : σ → Duration} {meaning : Meaning σ}

/-- A program sends one request, if it can be sent, and after that only writes messages. What it
yields is settled by what was understood of the answer. -/
def Calls (r : Request) (read : Answer → Except Api.Error β) (settle : Except Api.Error β → α)
    (p : Program α) : Prop :=
  ∃ finish, p = Task.exchange r read >>= finish ∧
    ∀ outcome, (finish outcome).Tells (settle outcome)

namespace Calls

variable {r : Request} {read : Answer → Except Api.Error β} {settle : Except Api.Error β → α}
  {p : Program α}

theorem exchange (r : Request) (read : Answer → Except Api.Error β) :
    Calls r read (fun outcome => outcome) (Task.exchange r read) :=
  ⟨pure, (bind_pure _).symm, .done⟩

theorem bind (h : Calls r read settle p) {next : α → Program γ}
    {settle' : Except Api.Error β → γ}
    (hnext : ∀ outcome, (next (settle outcome)).Tells (settle' outcome)) :
    Calls r read settle' (p >>= next) := by
  obtain ⟨finish, rfl, hfinish⟩ := h
  exact ⟨fun outcome => finish outcome >>= next, bind_assoc _ _ _, fun outcome =>
    (hfinish outcome).bind (hnext outcome)⟩

theorem call (r : Request) (read : Answer → Except Api.Error β) :
    Calls r read (fun outcome => outcome.mapError .request) (Task.call r read).run :=
  ⟨_, rfl, fun _ => .done _⟩

theorem attempt {t : Task α} {settle : Except Api.Error β → Except Error α}
    (h : Calls r read settle t.run) :
    Calls r read (fun outcome => .ok (settle outcome)) t.attempt.run :=
  h.bind fun _ => .done _

theorem lift {ε : Type} (h : Calls r read settle p) :
    Calls r read (fun outcome => .ok (settle outcome)) (liftM p : ExceptT ε Program α).run :=
  h.bind fun _ => .done _

theorem run_fst (h : Calls r read settle p) (hr : r.check = .ok ()) (s : σ) :
    (p.run meaning s).1 = settle (Task.understood read (meaning (.send r none) s).1) := by
  obtain ⟨finish, rfl, hfinish⟩ := h
  rw [run_bind, Task.run_exchange_of_sendable hr]
  exact (hfinish _).run_fst _

/-- What messages leave as it is, is after a call as after its request. -/
theorem run_snd (h : Calls r read settle p) (hr : r.check = .ok ()) {τ : Type} {view : σ → τ}
    (hview : ∀ level message s, view (meaning (.log level message) s).2 = view s) (s : σ) :
    view (p.run meaning s).2 = view (meaning (.send r none) s).2 := by
  obtain ⟨finish, rfl, hfinish⟩ := h
  rw [run_bind, Task.run_exchange_of_sendable hr]
  exact (hfinish _).run_snd hview _

/-- The same for a call that is cut off. -/
theorem run_within_snd (h : Calls r read settle p) (hr : r.check = .ok ()) {τ : Type} {view : σ → τ}
    (hview : ∀ level message s, view (meaning (.log level message) s).2 = view s)
    (deadline : Duration) (s : σ) :
    view ((p.within deadline).run meaning s).2 = view (meaning (.send r (some deadline)) s).2 := by
  obtain ⟨finish, rfl, hfinish⟩ := h
  rw [within_bind, run_bind, Task.run_exchange_within_snd hr]
  generalize (((Task.exchange r read).within deadline).run meaning s).1 = outcome
  cases outcome with
  | none => rfl
  | some outcome => exact ((hfinish outcome).within deadline).run_snd hview _

theorem performs (h : Calls r read settle p) {P : Action → Prop} (hsend : P (.send r none))
    (hlog : ∀ level message, P (.log level message)) : p.Performs P := by
  obtain ⟨finish, rfl, hfinish⟩ := h
  exact (Task.performs_exchange hsend read).bind fun outcome => (hfinish outcome).performs hlog

theorem exchanges_eq (h : Calls r read settle p) (s : σ) : p.exchanges clock meaning s =
    if r.check.isOk then
      [⟨r, clock s, (meaning (.send r none) s).1, clock (meaning (.send r none) s).2⟩]
    else [] := by
  obtain ⟨finish, rfl, hfinish⟩ := h
  rw [exchanges_bind, Task.exchanges_exchange, (hfinish _).exchanges_eq_nil, List.append_nil]

/-- What a call sends does not depend on what is settled by it. -/
theorem sent_eq (h : Calls r read settle p) (s : σ) :
    p.sent meaning s = (Task.call r read).run.sent meaning s := by
  obtain ⟨finish, rfl, hfinish⟩ := h
  rw [sent_bind, (hfinish _).sent_eq_nil, List.append_nil, Task.sent_call, Task.sent_exchange]

/-- What a call yields is settled by what the bare request yields. -/
theorem run_fst_eq (h : Calls r read settle p) (s : σ) :
    (p.run meaning s).1 = settle ((Task.exchange r read).run meaning s).1 := by
  obtain ⟨finish, rfl, hfinish⟩ := h
  rw [run_bind]
  exact (hfinish _).run_fst _

/-- **A call that can be made** is one exchange, and yields what its answer settles. -/
theorem exists_exchange (h : Calls r read settle p) (hr : r.check = .ok ())
    (htimed : meaning.Timed clock) (s : σ) :
    ∃ e : Exchange, p.exchanges clock meaning s = [e] ∧ e.request = r ∧
      (∃ outcome, e.outcome read = some outcome ∧ (p.run meaning s).1 = settle outcome) ∧
      clock (p.run meaning s).2 = e.closed := by
  obtain ⟨a, ha⟩ := Option.isSome_iff_exists.mp (htimed.patient r s)
  refine ⟨⟨r, clock s, some a, clock (meaning (.send r none) s).2⟩, ?_, rfl,
    ⟨read a, rfl, ?_⟩, h.run_snd hr htimed.log s⟩
  · rw [h.exchanges_eq, hr, ha]
    rfl
  · rw [h.run_fst hr, ha]
    rfl

/-- A call that cannot be made yields what the fault settles. -/
theorem run_fst_of_fault (h : Calls r read settle p) {fault : Api.Error}
    (hr : r.check = .error fault) (s : σ) :
    (p.run meaning s).1 = settle (.error fault) := by
  obtain ⟨finish, rfl, hfinish⟩ := h
  rw [run_bind, Task.run_exchange_of_fault hr]
  exact (hfinish _).run_fst _

end Calls

/-- A call has been made, or could not be made. -/
def Called (r : Request) (read : Answer → Except Api.Error β) (settle : Except Api.Error β → α)
    (exchanges : List Exchange) (value : α) : Prop :=
  (∃ fault, r.check = .error fault ∧ exchanges = [] ∧ value = settle (.error fault)) ∨
  ∃ e outcome, exchanges = [e] ∧ e.request = r ∧ e.outcome read = some outcome ∧
    value = settle outcome

theorem Called.of_sendable {r : Request} {read : Answer → Except Api.Error β}
    {settle : Except Api.Error β → α} {exchanges : List Exchange} {value : α}
    (h : Called r read settle exchanges value) (hr : r.check = .ok ()) :
    ∃ e outcome, exchanges = [e] ∧ e.request = r ∧ e.outcome read = some outcome ∧
      value = settle outcome := by
  obtain ⟨fault, hfault, -, -⟩ | hcalled := h
  · simp [hr] at hfault
  · exact hcalled

/-! ### What programs exchange and yield -/

/-- Whatever the world is like, what a program exchanges and yields is as described. -/
def Meets (clock : σ → Duration) (meaning : Meaning σ) (described : List Exchange → α → Prop)
    (p : Program α) : Prop :=
  ∀ s, described (p.exchanges clock meaning s) (p.run meaning s).1

theorem Calls.called {r : Request} {read : Answer → Except Api.Error β}
    {settle : Except Api.Error β → α} {p : Program α} (h : Calls r read settle p)
    (htimed : meaning.Timed clock) : p.Meets clock meaning (Called r read settle) := by
  intro s
  cases hr : r.check with
  | error fault =>
    refine Or.inl ⟨fault, hr, ?_, h.run_fst_of_fault hr s⟩
    rw [h.exchanges_eq, hr]
    rfl
  | ok =>
    obtain ⟨e, hexchanges, hasked, ⟨outcome, houtcome, hvalue⟩, -⟩ := h.exists_exchange hr htimed s
    exact Or.inr ⟨e, outcome, hexchanges, hasked, houtcome, hvalue⟩

namespace Meets

variable {described : List Exchange → α → Prop} {p : Program α}

theorem mono (h : p.Meets clock meaning described) {described' : List Exchange → α → Prop}
    (himp : ∀ exchanges value, described exchanges value → described' exchanges value) :
    p.Meets clock meaning described' := fun s => himp _ _ (h s)

theorem pure (value : α) : (Pure.pure value : Program α).Meets clock meaning
    fun exchanges value' => exchanges = [] ∧ value' = value := fun _ => ⟨rfl, rfl⟩

theorem of_silent (h : p.Performs Action.IsSilent) :
    p.Meets clock meaning fun exchanges _ => exchanges = [] := fun s => h.exchanges_eq_nil s

/-- What sends nothing does not count. -/
theorem bind_silent {ε : Type} (h : p.Performs Action.IsSilent) {next : α → ExceptT ε Program β}
    {whole : List Exchange → Except ε β → Prop}
    (hnext : ∀ value, (next value).run.Meets clock meaning whole) :
    ((liftM p : ExceptT ε Program α) >>= next).run.Meets clock meaning whole := by
  intro s
  rw [run_lift_bind, exchanges_bind, run_bind, h.exchanges_eq_nil, List.nil_append]
  exact hnext _ _

theorem bind (h : p.Meets clock meaning described) {next : α → Program β}
    {after : α → List Exchange → β → Prop} (hnext : ∀ value, (next value).Meets clock meaning
      (after value)) {whole : List Exchange → β → Prop}
    (hwhole : ∀ exchanges value exchanges' value', described exchanges value →
      after value exchanges' value' → whole (exchanges ++ exchanges') value') :
    (p >>= next).Meets clock meaning whole := by
  intro s
  rw [exchanges_bind, run_bind]
  exact hwhole _ _ _ _ (h s) (hnext _ _)

/-- A program that may fail, and one that goes on with its value. -/
theorem bind_except {ε : Type} {t : ExceptT ε Program α}
    {described : List Exchange → Except ε α → Prop} (h : t.run.Meets clock meaning described)
    {next : α → ExceptT ε Program β} (after : α → List Exchange → Except ε β → Prop)
    (hnext : ∀ value, (next value).run.Meets clock meaning (after value))
    {whole : List Exchange → Except ε β → Prop}
    (hfailed : ∀ exchanges e, described exchanges (.error e) → whole exchanges (.error e))
    (hwhole : ∀ exchanges value exchanges' outcome, described exchanges (.ok value) →
      after value exchanges' outcome → whole (exchanges ++ exchanges') outcome) :
    (t >>= next).run.Meets clock meaning whole := by
  intro s
  have hs := h s
  rw [ExceptT.run_bind, exchanges_bind, run_bind]
  generalize (t.run.run meaning s).1 = outcome at hs ⊢
  cases outcome with
  | error e =>
    rw [exchanges_pure, List.append_nil]
    exact hfailed _ e hs
  | ok value => exact hwhole _ _ _ _ hs (hnext value _)

end Meets

end Program

end CustomResource
