import CustomResource.Proofs.Controller.Requests
import CustomResource.Proofs.Program.Exchanges
import CustomResource.Proofs.Watch.History
import CustomResource.Simulation.World
import Mathlib.Logic.Relation

/-!
# Where a cancellation cuts

`Controller.run` is given what is selected, one choice after the other. Here the choices are made
while the controller runs, by a machine with small moves: the token fires at any moment, also while
the handler is at work, and when both a fired token and an item could be selected, either may be.
The handler's programs are performed action by action.

Whatever the moves are, the cut falls between two observations. The machine comes to its end only
when the handler's programs for the notifications of all observations that it has taken have been
performed, one after the other and with nothing but warnings between them, and during a call of the
handler the store is as the observation of that call has left it. What it has done then is the run
of `Controller.run` on the choices that were made.

## Main definitions

* `Controller.Step.callback`: what the handler is asked to do in a step.
* `Controller.Machine`: the state of a controller that runs.
* `Controller.Move`: the moves.
* `Controller.Consistent`: the store and the calls follow what has been taken.
* `Controller.Enacted`: the world is what the calls have made of it.
* `Controller.Reproduced`: a state is on the way of `Controller.run`.

## Main results

* `Controller.Move.consistent`, `Move.enacted`, `Move.reproduced`: every move keeps all three.
* `Controller.run_cut_between_observations`: what holds when the controller has ended, and during
  every call of the handler.
-/

namespace CustomResource.Controller

variable {k : Kind} {σ : Type}

/-! ### Calls of the handler -/

/-- What is to be done in a step: one of the three programs of the handler, or a warning. -/
def Step.callback (h : Handler k) : Step k → Program Unit
  | .warning e => Program.log .warn ("watch error: " ++ e.message)
  | .call (.added o) _ => h.onAdd o
  | .call (.updated old new) _ => h.onUpdate old new
  | .call (.deleted o) _ => h.onDelete o

/-- A step is performed by the program of the handler for its notification. -/
theorem Step.perform_eq_callback (h : Handler k) (step : Step k) :
    step.perform h = step.callback h := by
  cases step with
  | warning e => rfl
  | call n visible => cases n <;> rfl

/-- What is to be done in some steps, one after the other. -/
def callbacks (h : Handler k) : List (Step k) → Program Unit
  | [] => .done ()
  | step :: steps => do
    step.callback h
    callbacks h steps

/-- The notification of a step. -/
def Step.notification? : Step k → Option (Notification k)
  | .warning _ => none
  | .call n _ => some n

/-- The notifications among some steps. -/
def notifications (steps : List (Step k)) : List (Notification k) :=
  steps.filterMap Step.notification?

theorem notifications_append (steps more : List (Step k)) :
    notifications (steps ++ more) = notifications steps ++ notifications more :=
  List.filterMap_append

theorem notifications_calls (ns : List (Notification k)) (visible : Store k) :
    notifications (ns.map (Step.call · visible)) = ns := by
  rw [notifications, List.filterMap_map]
  exact List.filterMap_some

/-! ### The machine -/

/-- What a controller is doing: it selects, it goes through the steps of an item, it performs one of
them, it has stopped, or it has met an object without a name. -/
inductive Phase (k : Kind) where
  | selecting
  | dispatching (left : List (Step k))
  | performing (step : Step k) (rest : Program Unit) (left : List (Step k))
  | stopped
  | brokenOff

/-- The state of a controller: whether its token has fired, what the watch will still yield, what
has been taken of it, the steps that have been begun, the store, and the world. -/
structure Machine (k : Kind) (σ : Type) where
  fired : Bool
  upcoming : List (Watcher.Item k)
  taken : List (Watcher.Item k)
  begun : List (Step k)
  store : Store k
  phase : Phase k
  world : σ

/-- The notifications with which the handler has been called. -/
def Machine.calls (m : Machine k σ) : List (Notification k) := notifications m.begun

/-- The controller at its start. -/
def Machine.start (meaning : Meaning σ) (items : List (Watcher.Item k)) (world : σ) :
    Machine k σ where
  fired := false
  upcoming := items
  taken := []
  begun := []
  store := .empty
  phase := .selecting
  world := ((Program.log .info (startMessage k)).run meaning world).2

/-- The controller after its last message. -/
def Machine.stop (meaning : Meaning σ) (m : Machine k σ) : Machine k σ :=
  { m with
    phase := .stopped
    world := ((Program.log .info (stopMessage k)).run meaning m.world).2 }

/-- The moves of a controller. Its token may fire in any state. A fired token is only looked at
while the controller selects, and even then an item may be taken instead. A step begins with the
first action of the handler's program, and is finished when nothing is left of it. -/
inductive Move (h : Handler k) (meaning : Meaning σ) : Machine k σ → Machine k σ → Prop
  | fire (m : Machine k σ) : Move h meaning m { m with fired := true }
  | cancel {m : Machine k σ} (hphase : m.phase = .selecting) (hfired : m.fired = true) :
    Move h meaning m (m.stop meaning)
  | exhaust {m : Machine k σ} (hphase : m.phase = .selecting) (hnone : m.upcoming = []) :
    Move h meaning m (m.stop meaning)
  | take {m : Machine k σ} {item : Watcher.Item k} {rest : List (Watcher.Item k)}
    {steps : List (Step k)} {after : Store k} (hphase : m.phase = .selecting)
    (hnext : m.upcoming = item :: rest) (hsteps : steps? m.store item = some (steps, after)) :
    Move h meaning m { m with
      upcoming := rest, taken := m.taken ++ [item], store := after, phase := .dispatching steps }
  | breakOff {m : Machine k σ} {item : Watcher.Item k} {rest : List (Watcher.Item k)}
    (hphase : m.phase = .selecting) (hnext : m.upcoming = item :: rest)
    (hsteps : steps? m.store item = none) : Move h meaning m { m with phase := .brokenOff }
  | begin {m : Machine k σ} {step : Step k} {left : List (Step k)}
    (hphase : m.phase = .dispatching (step :: left)) : Move h meaning m { m with
      begun := m.begun ++ [step], phase := .performing step (step.callback h) left }
  | act {m : Machine k σ} {step : Step k} {action : Action} {next : action.Result → Program Unit}
    {left : List (Step k)} (hphase : m.phase = .performing step (.perform action next) left) :
    Move h meaning m { m with
      phase := .performing step (next (meaning action m.world).1) left
      world := (meaning action m.world).2 }
  | finish {m : Machine k σ} {step : Step k} {left : List (Step k)}
    (hphase : m.phase = .performing step (.done ()) left) :
    Move h meaning m { m with phase := .dispatching left }
  | resume {m : Machine k σ} (hphase : m.phase = .dispatching []) :
    Move h meaning m { m with phase := .selecting }

/-! ### What has been taken -/

/-- The observations among some items. -/
def observations (items : List (Watcher.Item k)) : List (Observation k) :=
  items.filterMap Except.toOption

theorem observations_concat (taken : List (Watcher.Item k)) (item : Watcher.Item k) :
    observations (taken ++ [item]) = observations taken ++ observations [item] :=
  List.filterMap_append ..

/-- The steps of the present item that have not begun. -/
def Phase.pending : Phase k → List (Step k)
  | .dispatching left => left
  | .performing _ _ left => left
  | _ => []

/-- Some calls of the handler end amid the notifications of the last observation, with some of them
left, and a store is as this observation has left it. -/
def IsAmid (taken : List (Observation k)) (store : Store k) (calls left : List (Notification k)) :
    Prop :=
  ∃ past e told before earlier, taken = past ++ [e] ∧
    Informer.run? .empty past = some (told, before) ∧
    Informer.step? before e = some (earlier ++ left, store) ∧ calls = told ++ earlier

/-- With one more call one notification less is left. -/
theorem IsAmid.next {taken : List (Observation k)} {store : Store k} {n : Notification k}
    {calls left : List (Notification k)} (h : IsAmid taken store calls (n :: left)) :
    IsAmid taken store (calls ++ [n]) left := by
  obtain ⟨past, e, told, before, earlier, htaken, hpast, hstep, rfl⟩ := h
  refine ⟨past, e, told, before, earlier ++ [n], htaken, hpast, ?_, List.append_assoc ..⟩
  rwa [List.append_assoc, List.singleton_append]

/-- The steps that are left of an item are those of an error, or calls that carry the store as it
is. -/
def AreLeft (taken : List (Observation k)) (store : Store k) (calls : List (Notification k))
    (left : List (Step k)) : Prop :=
  (∃ e, left <+: [.warning e]) ∨
    ∃ ns, left = ns.map (Step.call · store) ∧ IsAmid taken store calls ns

/-- How far a controller has come with the present item, if there is one. -/
def Machine.IsOnWay (m : Machine k σ) : Prop :=
  match m.phase with
  | .dispatching left => AreLeft (observations m.taken) m.store m.calls left
  | .performing step _ left => ∃ before, m.begun = before ++ [step] ∧
      AreLeft (observations m.taken) m.store (notifications before) (step :: left)
  | _ => True

/-- What holds in every state: the store follows the observations that have been taken, and of their
notifications just those of the present item can be left. -/
structure Consistent (items : List (Watcher.Item k)) (m : Machine k σ) : Prop where
  split : m.taken ++ m.upcoming = items
  followed : Informer.run? .empty (observations m.taken) =
    some (m.calls ++ notifications m.phase.pending, m.store)
  onWay : m.IsOnWay
  unbroken : m.phase ≠ .brokenOff

theorem consistent_start (meaning : Meaning σ) (items : List (Watcher.Item k)) (world : σ) :
    Consistent items (Machine.start meaning items world) where
  split := rfl
  followed := rfl
  onWay := trivial
  unbroken := by simp [Machine.start]

/-- The machine stops only between two items. -/
theorem Consistent.stop {items : List (Watcher.Item k)} {m : Machine k σ} (hm : Consistent items m)
    (meaning : Meaning σ) (hphase : m.phase = .selecting) : Consistent items (m.stop meaning) where
  split := hm.split
  followed := by rw [Machine.stop, hm.followed, hphase]; rfl
  onWay := trivial
  unbroken := by simp [Machine.stop]

/-- With an observation the store changes at once, and all its notifications are left. -/
theorem Consistent.take {items rest : List (Watcher.Item k)} {m : Machine k σ}
    (hm : Consistent items m) {item : Watcher.Item k} {steps : List (Step k)} {after : Store k}
    (hphase : m.phase = .selecting) (hnext : m.upcoming = item :: rest)
    (hsteps : steps? m.store item = some (steps, after)) :
    Consistent items { m with
      upcoming := rest, taken := m.taken ++ [item], store := after,
      phase := .dispatching steps } := by
  have hsplit : (m.taken ++ [item]) ++ rest = items := by
    rw [List.append_assoc, List.singleton_append, ← hnext, hm.split]
  have hfollowed : Informer.run? .empty (observations m.taken) = some (m.calls, m.store) := by
    rw [hm.followed, hphase]
    exact congrArg (fun calls => some (calls, m.store)) (List.append_nil _)
  cases item with
  | error e =>
    obtain ⟨rfl, rfl⟩ : [.warning e] = steps ∧ m.store = after := by simpa [steps?] using hsteps
    have hsame : observations (m.taken ++ [.error e]) = observations m.taken := by
      rw [observations_concat]
      exact List.append_nil _
    refine ⟨hsplit, ?_, .inl ⟨e, List.prefix_rfl⟩, by simp⟩
    rw [hsame, hfollowed]
    exact congrArg (fun calls => some (calls, m.store)) (List.append_nil _).symm
  | ok e =>
    obtain ⟨⟨ns, after'⟩, hstep, hvalue⟩ := Option.map_eq_some_iff.mp hsteps
    obtain ⟨rfl, rfl⟩ : ns.map (Step.call · after') = steps ∧ after' = after := by
      simpa using hvalue
    have hmore : observations (m.taken ++ [.ok e]) = observations m.taken ++ [e] :=
      observations_concat _ _
    refine ⟨hsplit, ?_, .inr ⟨ns, rfl, ?_⟩, by simp⟩
    · rw [hmore, Phase.pending, notifications_calls]
      exact Informer.run?_append.mpr ⟨m.calls, m.store, ns, hfollowed,
        Informer.run?_singleton_eq_some_iff.mpr (Informer.step?_eq_some_iff.mp hstep), rfl⟩
    · exact ⟨observations m.taken, e, m.calls, m.store, [], hmore, hfollowed, hstep,
        (List.append_nil _).symm⟩

theorem Consistent.begin {items : List (Watcher.Item k)} {m : Machine k σ}
    (hm : Consistent items m) (h : Handler k) {step : Step k} {left : List (Step k)}
    (hphase : m.phase = .dispatching (step :: left)) : Consistent items { m with
      begun := m.begun ++ [step], phase := .performing step (step.callback h) left } where
  split := hm.split
  followed := by
    rw [hm.followed, hphase, Machine.calls, Machine.calls, ← notifications_append,
      ← notifications_append, List.append_assoc]
    rfl
  onWay := by
    have honWay := hm.onWay
    rw [Machine.IsOnWay, hphase] at honWay
    exact ⟨m.begun, rfl, honWay⟩
  unbroken := by simp

theorem Consistent.finish {items : List (Watcher.Item k)} {m : Machine k σ}
    (hm : Consistent items m) {step : Step k} {left : List (Step k)}
    (hphase : m.phase = .performing step (.done ()) left) :
    Consistent items { m with phase := .dispatching left } where
  split := hm.split
  followed := by rw [hm.followed, hphase]; rfl
  onWay := by
    have honWay := hm.onWay
    rw [Machine.IsOnWay, hphase] at honWay
    obtain ⟨before, hbegun, hleft⟩ := honWay
    change AreLeft _ _ (notifications m.begun) left
    rw [hbegun, notifications_append]
    obtain ⟨e, hprefix⟩ | ⟨ns, hns, hamid⟩ := hleft
    · obtain ⟨-, hnil⟩ := List.cons_prefix_cons.mp hprefix
      exact .inl ⟨e, hnil.trans (List.nil_prefix)⟩
    · obtain ⟨n, ns', rfl, rfl, rfl⟩ := List.map_eq_cons_iff.mp hns.symm
      exact .inr ⟨ns', rfl, hamid.next⟩
  unbroken := by simp

/-- **Every move keeps a state consistent.** -/
theorem Move.consistent {h : Handler k} {meaning : Meaning σ} {items : List (Watcher.Item k)}
    (hnamed : ∀ e ∈ observations items, e.Named) {m m' : Machine k σ} (hmove : Move h meaning m m')
    (hm : Consistent items m) : Consistent items m' := by
  cases hmove with
  | fire => exact ⟨hm.split, hm.followed, hm.onWay, hm.unbroken⟩
  | cancel hphase _ => exact hm.stop meaning hphase
  | exhaust hphase _ => exact hm.stop meaning hphase
  | take hphase hnext hsteps => exact hm.take hphase hnext hsteps
  | @breakOff item rest hphase hnext hsteps =>
    cases item with
    | error e => simp [steps?] at hsteps
    | ok e =>
      have he : e ∈ observations items := by
        refine List.mem_filterMap.mpr ⟨.ok e, ?_, rfl⟩
        rw [← hm.split, hnext]
        simp
      obtain ⟨ns, after, hstep⟩ := Informer.exists_step m.store (hnamed e he)
      simp [steps?, hstep] at hsteps
  | begin hphase => exact hm.begin h hphase
  | act hphase =>
    refine ⟨hm.split, ?_, ?_, by simp⟩
    · rw [hm.followed, hphase]
      rfl
    · have honWay := hm.onWay
      rwa [Machine.IsOnWay, hphase] at honWay
  | finish hphase => exact hm.finish hphase
  | resume hphase =>
    refine ⟨hm.split, ?_, trivial, by simp⟩
    rw [hm.followed, hphase]
    rfl

/-! ### What has been made of the world -/

/-- The world after the first message and some steps. -/
def worldAfter (h : Handler k) (meaning : Meaning σ) (world : σ) (steps : List (Step k)) : σ :=
  ((Program.log .info (startMessage k) >>= fun _ => callbacks h steps).run meaning world).2

/-- One more step is performed in the world that those before it have left. -/
theorem worldAfter_concat (h : Handler k) (meaning : Meaning σ) (world : σ)
    (steps : List (Step k)) (step : Step k) : worldAfter h meaning world (steps ++ [step]) =
      ((step.callback h).run meaning (worldAfter h meaning world steps)).2 := by
  have hcallbacks : ∀ w : σ, ((callbacks h (steps ++ [step])).run meaning w).2 =
      ((step.callback h).run meaning ((callbacks h steps).run meaning w).2).2 := by
    induction steps with
    | nil =>
      intro w
      change ((step.callback h >>= fun _ => Program.done ()).run meaning w).2 = _
      rw [Program.run_bind]
      rfl
    | cons first rest ih =>
      intro w
      rw [List.cons_append, callbacks, callbacks, Program.run_bind, Program.run_bind, ih]
  rw [worldAfter, worldAfter, Program.run_bind, Program.run_bind, hcallbacks]

/-- The world is what the steps that have begun make of it, once what is left of the present step
is performed. -/
def Enacted (h : Handler k) (meaning : Meaning σ) (world : σ) (m : Machine k σ) : Prop :=
  match m.phase with
  | .performing _ rest _ => (rest.run meaning m.world).2 = worldAfter h meaning world m.begun
  | .stopped => m.world = ((Program.log .info (stopMessage k)).run meaning
      (worldAfter h meaning world m.begun)).2
  | _ => m.world = worldAfter h meaning world m.begun

theorem enacted_start (h : Handler k) (meaning : Meaning σ) (items : List (Watcher.Item k))
    (world : σ) : Enacted h meaning world (Machine.start meaning items world) := by
  change _ = worldAfter h meaning world []
  rw [worldAfter, Program.run_bind]
  rfl

theorem Enacted.stop {h : Handler k} {meaning : Meaning σ} {world : σ} {m : Machine k σ}
    (hm : Enacted h meaning world m) (hphase : m.phase = .selecting) :
    Enacted h meaning world (m.stop meaning) := by
  rw [Enacted, hphase] at hm
  exact congrArg (fun w => ((Program.log .info (stopMessage k)).run meaning w).2) hm

/-- **Every move keeps the world what the calls have made of it.** -/
theorem Move.enacted {h : Handler k} {meaning : Meaning σ} {world : σ} {m m' : Machine k σ}
    (hmove : Move h meaning m m') (hm : Enacted h meaning world m) :
    Enacted h meaning world m' := by
  cases hmove with
  | fire => exact hm
  | cancel hphase _ => exact hm.stop hphase
  | exhaust hphase _ => exact hm.stop hphase
  | take hphase _ _ => rwa [Enacted, hphase] at hm
  | breakOff hphase _ _ => rwa [Enacted, hphase] at hm
  | @begin step left hphase =>
    rw [Enacted, hphase] at hm
    change ((step.callback h).run meaning m.world).2 = _
    rw [worldAfter_concat, ← hm]
  | act hphase => rwa [Enacted, hphase] at hm
  | finish hphase => rwa [Enacted, hphase] at hm
  | resume hphase => rwa [Enacted, hphase] at hm

/-! ### The run on the choices that were made -/

/-- What a controller has still to do, if it goes on with some choices. -/
def Machine.remaining (h : Handler k) (m : Machine k σ) (more : List (Selected k)) :
    Program (Ending × Store k) :=
  match m.phase with
  | .selecting => loop h m.store more
  | .dispatching left => performAll h left >>= fun _ => loop h m.store more
  | .performing _ rest left =>
    rest >>= fun _ => performAll h left >>= fun _ => loop h m.store more
  | .stopped => pure (.stopped, m.store)
  | .brokenOff => pure (.brokenOff, m.store)

/-- What may have been selected beside the items that are taken: the end, if it has been reached. -/
def Phase.Closing : Phase k → List (Selected k) → Prop
  | .stopped, last => last = [.cancelled] ∨ last = [.ended]
  | .brokenOff, last => ∃ item, last = [.item item]
  | _, last => last = []

/-- A state is on the way of `Controller.run`: the run on what has been selected, and on any more,
is what the state has still to do. -/
def Reproduced (h : Handler k) (meaning : Meaning σ) (world : σ) (m : Machine k σ) : Prop :=
  ∃ last, m.phase.Closing last ∧ ∀ more,
    (run h (m.taken.map .item ++ (last ++ more))).run meaning world =
      (m.remaining h more).run meaning m.world

theorem reproduced_start (h : Handler k) (meaning : Meaning σ) (items : List (Watcher.Item k))
    (world : σ) : Reproduced h meaning world (Machine.start meaning items world) :=
  ⟨[], rfl, fun more => by rw [run, Program.run_bind]; rfl⟩

/-- With one more choice the run goes on with what is left. -/
theorem Reproduced.select {h : Handler k} {meaning : Meaning σ} {world : σ} {m m' : Machine k σ}
    (hm : Reproduced h meaning world m) (hphase : m.phase = .selecting) (choice : Selected k)
    (last : List (Selected k)) (hclosing : m'.phase.Closing last)
    (htaken : m'.taken.map .item ++ last = m.taken.map .item ++ [choice])
    (hloop : ∀ more, (loop h m.store (choice :: more)).run meaning m.world =
      (m'.remaining h more).run meaning m'.world) : Reproduced h meaning world m' := by
  obtain ⟨last', hlast, hrun⟩ := hm
  rw [hphase] at hlast
  obtain rfl : last' = [] := hlast
  refine ⟨last, hclosing, fun more => ?_⟩
  rw [← List.append_assoc, htaken, List.append_assoc]
  refine (hrun (choice :: more)).trans ?_
  rw [Machine.remaining, hphase]
  exact hloop more

/-- Between two choices only the present item is gone on with. -/
theorem Reproduced.proceed {h : Handler k} {meaning : Meaning σ} {world : σ} {m m' : Machine k σ}
    (hm : Reproduced h meaning world m) (htaken : m'.taken = m.taken)
    (hclosing : ∀ last, m.phase.Closing last → m'.phase.Closing last)
    (hsame : ∀ more, (m.remaining h more).run meaning m.world =
      (m'.remaining h more).run meaning m'.world) : Reproduced h meaning world m' := by
  obtain ⟨last, hlast, hrun⟩ := hm
  refine ⟨last, hclosing last hlast, fun more => ?_⟩
  rw [htaken]
  exact (hrun more).trans (hsame more)

/-- **Every move stays on the way of the run.** -/
theorem Move.reproduced {h : Handler k} {meaning : Meaning σ} {world : σ} {m m' : Machine k σ}
    (hmove : Move h meaning m m') (hm : Reproduced h meaning world m) :
    Reproduced h meaning world m' := by
  cases hmove with
  | fire => exact hm.proceed rfl (fun _ => id) fun _ => rfl
  | cancel hphase _ => exact hm.select hphase .cancelled _ (Or.inl rfl) rfl fun _ => rfl
  | exhaust hphase _ => exact hm.select hphase .ended _ (Or.inr rfl) rfl fun _ => rfl
  | @take item rest steps after hphase _ hsteps =>
    refine hm.select hphase (.item item) [] rfl (by simp) fun more => ?_
    rw [loop, hsteps]
    rfl
  | @breakOff item rest hphase _ hsteps =>
    refine hm.select hphase (.item item) _ ⟨item, rfl⟩ rfl fun more => ?_
    rw [loop, hsteps]
    rfl
  | @begin step left hphase =>
    refine hm.proceed rfl (fun _ hlast => by rwa [hphase] at hlast) fun more => ?_
    rw [Machine.remaining, hphase]
    change ((performAll h (step :: left)) >>= fun _ => loop h m.store more).run meaning m.world = _
    rw [performAll, step.perform_eq_callback]
    exact congrArg (fun p => Program.run meaning p m.world) (bind_assoc _ _ _)
  | act hphase =>
    refine hm.proceed rfl (fun _ hlast => by rwa [hphase] at hlast) fun more => ?_
    rw [Machine.remaining, hphase]
    rfl
  | finish hphase =>
    refine hm.proceed rfl (fun _ hlast => by rwa [hphase] at hlast) fun more => ?_
    rw [Machine.remaining, hphase]
    rfl
  | resume hphase =>
    refine hm.proceed rfl (fun _ hlast => by rwa [hphase] at hlast) fun more => ?_
    rw [Machine.remaining, hphase]
    rfl

/-! ### Whole runs -/

/-- The states that a controller can come to. -/
abbrev Reaches (h : Handler k) (meaning : Meaning σ) : Machine k σ → Machine k σ → Prop :=
  Relation.ReflTransGen (Move h meaning)

theorem Reaches.consistent {h : Handler k} {meaning : Meaning σ} {items : List (Watcher.Item k)}
    (hnamed : ∀ e ∈ observations items, e.Named) {world : σ} {m : Machine k σ}
    (hm : Reaches h meaning (.start meaning items world) m) : Consistent items m := by
  induction hm with
  | refl => exact consistent_start meaning items world
  | tail _ hmove ih => exact hmove.consistent hnamed ih

theorem Reaches.reproduced {h : Handler k} {meaning : Meaning σ} {items : List (Watcher.Item k)}
    {world : σ} {m : Machine k σ} (hm : Reaches h meaning (.start meaning items world) m) :
    Reproduced h meaning world m := by
  induction hm with
  | refl => exact reproduced_start h meaning items world
  | tail _ hmove ih => exact hmove.reproduced ih

theorem Reaches.enacted {h : Handler k} {meaning : Meaning σ} {items : List (Watcher.Item k)}
    {world : σ} {m : Machine k σ} (hm : Reaches h meaning (.start meaning items world) m) :
    Enacted h meaning world m := by
  induction hm with
  | refl => exact enacted_start h meaning items world
  | tail _ hmove ih => exact hmove.enacted ih

/-! ### The end can always be reached -/

section

variable (h : Handler k) (meaning : Meaning σ)

/-- A call of the handler comes to its end. The induction is on what is left of its program. -/
theorem reaches_of_performing {step : Step k} {rest : Program Unit} {left : List (Step k)}
    {m : Machine k σ} (hphase : m.phase = .performing step rest left) :
    ∃ m', Reaches h meaning m m' ∧ m'.phase = .dispatching left := by
  induction rest generalizing m with
  | done u => exact ⟨_, .single (.finish hphase), rfl⟩
  | perform action next ih =>
    obtain ⟨m', hreaches, hphase'⟩ := ih _ (m := { m with
      phase := .performing step (next (meaning action m.world).1) left
      world := (meaning action m.world).2 }) rfl
    exact ⟨m', .head (.act hphase) hreaches, hphase'⟩

/-- All steps of an item come to their ends. -/
theorem reaches_of_dispatching {left : List (Step k)} {m : Machine k σ}
    (hphase : m.phase = .dispatching left) :
    ∃ m', Reaches h meaning m m' ∧ m'.phase = .selecting := by
  induction left generalizing m with
  | nil => exact ⟨_, .single (.resume hphase), rfl⟩
  | cons step left ih =>
    obtain ⟨m', hperformed, hphase'⟩ := reaches_of_performing h meaning (m := { m with
      begun := m.begun ++ [step], phase := .performing step (step.callback h) left }) rfl
    obtain ⟨m'', hreaches, hselecting⟩ := ih hphase'
    exact ⟨m'', .head (.begin hphase) (hperformed.trans hreaches), hselecting⟩

/-- **The token is heeded in the end**: from every state the controller can come to a stop. -/
theorem exists_reaches_stopped (m : Machine k σ) (hm : m.phase ≠ .brokenOff) :
    ∃ m', Reaches h meaning m m' ∧ m'.phase = .stopped := by
  have hselecting : ∀ m : Machine k σ, m.phase = .selecting →
      ∃ m', Reaches h meaning m m' ∧ m'.phase = .stopped := fun m hphase =>
    ⟨_, .head (.fire m) (.single (.cancel hphase rfl)), rfl⟩
  have hdispatching : ∀ (m : Machine k σ) left, m.phase = .dispatching left →
      ∃ m', Reaches h meaning m m' ∧ m'.phase = .stopped := by
    intro m left hphase
    obtain ⟨m', hreaches, hphase'⟩ := reaches_of_dispatching h meaning hphase
    obtain ⟨m'', hstops, hstopped⟩ := hselecting m' hphase'
    exact ⟨m'', hreaches.trans hstops, hstopped⟩
  cases hphase : m.phase with
  | selecting => exact hselecting m hphase
  | dispatching left => exact hdispatching m left hphase
  | performing step rest left =>
    obtain ⟨m', hreaches, hphase'⟩ := reaches_of_performing h meaning hphase
    obtain ⟨m'', hstops, hstopped⟩ := hdispatching m' left hphase'
    exact ⟨m'', hreaches.trans hstops, hstopped⟩
  | stopped => exact ⟨m, .refl, hphase⟩
  | brokenOff => exact absurd hphase hm

end

/-! ### Where the cut falls -/

theorem Consistent.observations_prefix {items : List (Watcher.Item k)} {m : Machine k σ}
    (hm : Consistent items m) : observations m.taken <+: observations items := by
  rw [← hm.split, observations, observations, List.filterMap_append]
  exact List.prefix_append _ _

/-- Once the machine has stopped no notification is left. -/
theorem Consistent.of_stopped {items : List (Watcher.Item k)} {m : Machine k σ}
    (hm : Consistent items m) (hstopped : m.phase = .stopped) :
    Informer.run? .empty (observations m.taken) = some (notifications m.begun, m.store) := by
  have hfollowed := hm.followed
  rw [hstopped] at hfollowed
  exact hfollowed.trans (congrArg (fun calls => some (calls, m.store)) (List.append_nil _))

/-- A call is one of those of the last observation, and sees the store that this has left. -/
theorem Consistent.of_performing {items : List (Watcher.Item k)} {m : Machine k σ}
    (hm : Consistent items m) {n : Notification k} {visible : Store k} {rest : Program Unit}
    {left : List (Step k)} (hphase : m.phase = .performing (.call n visible) rest left) :
    visible = m.store ∧ ∃ past e told before earlier later,
      observations m.taken = past ++ [e] ∧ Informer.run? .empty past = some (told, before) ∧
      Informer.step? before e = some (earlier ++ n :: later, m.store) ∧
      notifications m.begun = told ++ earlier ++ [n] := by
  have honWay := hm.onWay
  rw [Machine.IsOnWay, hphase] at honWay
  obtain ⟨earlierSteps, hbegun, hleft⟩ := honWay
  obtain ⟨e, hprefix⟩ | ⟨ns, hns, hamid⟩ := hleft
  · exact nomatch (List.cons_prefix_cons.mp hprefix).1
  obtain ⟨n', later, rfl, hstep, -⟩ := List.map_eq_cons_iff.mp hns.symm
  obtain ⟨rfl, rfl⟩ := Step.call.inj hstep
  obtain ⟨past, e, told, before, earlier, htaken, hpast, hmade, hcalls⟩ := hamid
  refine ⟨rfl, past, e, told, before, earlier, later, htaken, hpast, hmade, ?_⟩
  rw [hbegun, notifications_append, hcalls]
  rfl

/-- Once the machine has stopped nothing has been done but the steps that have begun, with a message
before them and one after them. -/
theorem Enacted.of_stopped {h : Handler k} {meaning : Meaning σ} {world : σ} {m : Machine k σ}
    (hm : Enacted h meaning world m) (hstopped : m.phase = .stopped) :
    m.world = ((do
      Program.log .info (startMessage k)
      callbacks h m.begun
      Program.log .info (stopMessage k) : Program Unit).run meaning world).2 := by
  rw [Enacted, hstopped] at hm
  refine hm.trans ?_
  simp only [worldAfter, Program.run_bind]

theorem Reproduced.of_stopped {h : Handler k} {meaning : Meaning σ} {world : σ} {m : Machine k σ}
    (hm : Reproduced h meaning world m) (hstopped : m.phase = .stopped) :
    ∃ last, (last = .cancelled ∨ last = .ended) ∧
      (run h (m.taken.map .item ++ [last])).run meaning world = ((.stopped, m.store), m.world) := by
  obtain ⟨last, hlast, hrun⟩ := hm
  rw [hstopped] at hlast
  have hend := hrun []
  rw [Machine.remaining, hstopped, List.append_nil] at hend
  obtain rfl | rfl := hlast
  · exact ⟨.cancelled, Or.inl rfl, hend⟩
  · exact ⟨.ended, Or.inr rfl, hend⟩

/-- **A run is cut between two observations.** Whenever the token fires and whatever is selected, a
controller that has stopped has called the handler with the notifications of the observations that
it has taken, in order and each of them once: what has come of the world is what the handler's
programs for these have made of it, with the messages at the start and at the end and with warnings
between them, and the store is what the same observations come to. During every call the store is
as the observation of that call has left it, which is the last one that has been taken. -/
theorem run_cut_between_observations {h : Handler k} {meaning : Meaning σ}
    {items : List (Watcher.Item k)} (hnamed : ∀ e ∈ observations items, e.Named) {world : σ}
    {m : Machine k σ} (hm : Reaches h meaning (.start meaning items world) m) :
    m.phase ≠ .brokenOff ∧ observations m.taken <+: observations items ∧
    (m.phase = .stopped →
      Informer.run? .empty (observations m.taken) = some (notifications m.begun, m.store) ∧
      m.world = ((do
        Program.log .info (startMessage k)
        callbacks h m.begun
        Program.log .info (stopMessage k) : Program Unit).run meaning world).2 ∧
      ∃ last, (last = .cancelled ∨ last = .ended) ∧
        (run h (m.taken.map .item ++ [last])).run meaning world =
          ((.stopped, m.store), m.world)) ∧
    ∀ n visible rest left, m.phase = .performing (.call n visible) rest left →
      visible = m.store ∧ ∃ past e told before earlier later,
        observations m.taken = past ++ [e] ∧ Informer.run? .empty past = some (told, before) ∧
        Informer.step? before e = some (earlier ++ n :: later, m.store) ∧
        notifications m.begun = told ++ earlier ++ [n] := by
  have hconsistent := hm.consistent hnamed
  refine ⟨hconsistent.unbroken, hconsistent.observations_prefix, fun hstopped => ?_,
    fun n visible rest left => hconsistent.of_performing⟩
  exact ⟨hconsistent.of_stopped hstopped, hm.enacted.of_stopped hstopped,
    hm.reproduced.of_stopped hstopped⟩

/-- The handler that writes a message about each notification. -/
def teller : Handler .test where
  onAdd o := Program.log .info ("added " ++ o.key)
  onUpdate _ o := Program.log .info ("updated " ++ o.key)
  onDelete o := Program.log .info ("deleted " ++ o.key)

/-- A list of two objects, an error of the watch, and a change. -/
def sampleItems : List (Watcher.Item .test) :=
  [.ok (.restarted [.sample "crd" "x" "1" "a", .sample "crd" "y" "2" "b"]), .error .noVersion,
    .ok (.applied (.sample "crd" "x" "3" "a"))]

/-- The token fires while the handler is at work on the first of two objects. The second one is
still handled, and nothing else is. -/
theorem sampleItems_cut : ∃ m, Reaches teller World.perform
      (.start World.perform sampleItems (World.start [])) m ∧
    m.phase = .stopped ∧
    Informer.run? .empty ((observations sampleItems).take 1) =
      some ([.added (.sample "crd" "x" "1" "a"), .added (.sample "crd" "y" "2" "b")], m.store) ∧
    m.world.trace = [.logged .info "watching Test objects", .logged .info "added crd/x",
      .logged .info "added crd/y", .logged .info "stopped watching Test objects"] := by
  have hlisted := Relation.ReflTransGen.single (r := Move teller World.perform)
    (a := .start World.perform sampleItems (World.start [])) (.take rfl rfl rfl)
  have hfired := (hlisted.tail (.begin rfl)).tail (.fire _)
  have hfirst := (hfired.tail (.act rfl)).tail (.finish rfl)
  have hsecond := ((hfirst.tail (.begin rfl)).tail (.act rfl)).tail (.finish rfl)
  have hstopped := (hsecond.tail (.resume rfl)).tail (.cancel rfl rfl)
  have hnamed : ∀ e ∈ observations sampleItems, ∀ o ∈ e.objects, o.metadata.name.isSome := by
    decide
  obtain ⟨hstore, hworld, -⟩ := (run_cut_between_observations hnamed hstopped).2.2.1 rfl
  exact ⟨_, hstopped, rfl, hstore, congrArg World.trace hworld⟩

end CustomResource.Controller
