import CustomResource.Controller.Loop
import CustomResource.Demo.Walkthrough
import CustomResource.Proofs.Program.Path
import Mathlib.Logic.Relation

/-!
# The demonstration and its controller, side by side

Two flows of actions share one apiserver: the demonstration, and the controller that it starts. Here
they are interleaved in every way. A request is issued in one turn and answered in a later one, and
between the two the other flow may take any turns. Nothing is fixed of the answers, of the instants,
or of who comes next, so a statement about all runs is one about all scripts of answers with all
delays.

The flows meet in four actions only: the demonstration starts the controller, fires its token, asks
how many objects it knows, and waits for its end. The controller looks at its token between two
items and while it waits for an answer of its watch; a fired token does not keep it from selecting
something else that is ready.

What is left out: the messages of the controller itself, which concern no one else, and the pauses
after errors of its watch, which any turns of the other flow can stand for. A watch is answered as a
whole. That its events come one by one makes no difference to who issues what after what: they may
be selected in any later turn, and the next watch is asked for only when none is left.

## Main definitions

* `Flow`: what a program has still to do, with a request that has been issued.
* `Companion`: a controller that runs.
* `Duo`: both flows and the log of what has happened.
* `Duo.step?`: one turn.
* `Duo.Reaches`: the states that can be come to.

## Main results

* `Duo.Sound`, `Duo.Reaches.sound`: what holds of every state that can be come to.
-/

namespace CustomResource.Demo

open Program (Performed)

variable {k : Kind} {α : Type}

/-! ### One flow of actions -/

/-- What a program has still to do. It goes on, or it waits for what becomes of a request. -/
inductive Flow (α : Type) where
  | going (rest : Program α)
  | awaiting (request : Request) (deadline : Option Duration) (next : Option Answer → Program α)

/-- What a flow does in one turn: it issues a request, or an action is over. -/
inductive Flow.Effect where
  | issued (request : Request)
  | performed (step : Performed)

/-- A turn of a flow: it issues a request, or does not as its deadline is over; it is answered, or
gives the request up; or it passes on from another action at an instant. -/
inductive Flow.Turn where
  | issue
  | withhold
  | receive (answer : Option Answer)
  | pass (instant : Duration)

/-- The result of an action that concerns neither the apiserver nor the controller. -/
def passing? (instant : Duration) : (action : Action) → Option action.Result
  | .log _ _ => some ()
  | .now => some instant
  | .sleepUntil _ => some ()
  | .connect _ => some ()
  | _ => none

namespace Flow

/-- What a flow has still to do, the request that it waits for included. -/
def program : Flow α → Program α
  | .going rest => rest
  | .awaiting request deadline next => .perform (.send request deadline) next

/-- One turn of a flow, if it can take that turn. -/
def step? (flow : Flow α) : Turn → Option (Effect × Flow α)
  | .issue =>
    match flow with
    | .going (.perform (.send r deadline) next) => some (.issued r, .awaiting r deadline next)
    | _ => none
  | .withhold =>
    match flow with
    | .going (.perform (.send r (some deadline)) next) =>
      some (.performed ⟨.send r (some deadline), none⟩, .going (next none))
    | _ => none
  | .receive answer =>
    match flow with
    | .awaiting r deadline next =>
      some (.performed ⟨.send r deadline, answer⟩, .going (next answer))
    | _ => none
  | .pass instant =>
    match flow with
    | .going (.perform action next) =>
      (passing? instant action).map fun result =>
        (.performed ⟨action, result⟩, .going (next result))
    | _ => none

/-- **What a flow does in one turn**: it issues a request and has still to do what it had, or an
action is over that does not concern the controller. -/
theorem step?_cases {flow flow' : Flow α} {turn : Turn} {effect : Effect}
    (h : flow.step? turn = some (effect, flow')) :
    (∃ r deadline next, effect = .issued r ∧
      flow.program = .perform (.send r deadline) next ∧ flow'.program = flow.program) ∨
    ∃ action result next, effect = .performed ⟨action, result⟩ ∧
      flow.program = .perform action next ∧ flow'.program = next result ∧
      action ≠ .joinController ∧ ∀ k, action ≠ .startController k := by
  cases turn with
  | issue =>
    simp only [step?] at h
    split at h
    · next r deadline next =>
      obtain ⟨rfl, rfl⟩ := Prod.mk.inj (Option.some.inj h)
      exact Or.inl ⟨r, deadline, next, rfl, rfl, rfl⟩
    · simp at h
  | withhold =>
    simp only [step?] at h
    split at h
    · next r deadline next =>
      obtain ⟨rfl, rfl⟩ := Prod.mk.inj (Option.some.inj h)
      exact Or.inr ⟨.send r (some deadline), none, next, rfl, rfl, rfl, nofun, nofun⟩
    · simp at h
  | receive answer =>
    simp only [step?] at h
    split at h
    · next r deadline next =>
      obtain ⟨rfl, rfl⟩ := Prod.mk.inj (Option.some.inj h)
      exact Or.inr ⟨.send r deadline, answer, next, rfl, rfl, rfl, nofun, nofun⟩
    · simp at h
  | pass instant =>
    simp only [step?] at h
    split at h
    · next action next =>
      obtain ⟨result, hresult, hpassed⟩ := Option.map_eq_some_iff.mp h
      obtain ⟨rfl, rfl⟩ := Prod.mk.inj hpassed
      refine Or.inr ⟨action, result, next, rfl, rfl, rfl, ?_, ?_⟩
      · rintro rfl
        simp [passing?] at hresult
      · rintro k rfl
        simp [passing?] at hresult
    · simp at h

end Flow

/-! ### The controller -/

/-- What a controller is doing: it selects, it waits for an answer of its watch, it goes through the
steps of an item, it performs one of them, it has stopped, or it has met an object without a
name. -/
inductive Companion.Phase (k : Kind) where
  | selecting
  | awaiting
  | dispatching (left : List (Controller.Step k))
  | performing (flow : Flow Unit) (left : List (Controller.Step k))
  | stopped
  | brokenOff

/-- A controller that runs: whether its token has fired, the state of its watch, the items that this
has yielded and that have not been selected, the store, and what it is doing. -/
structure Companion (k : Kind) where
  fired : Bool
  watcher : Watcher k
  upcoming : List (Watcher.Item k)
  store : Store k
  phase : Companion.Phase k

namespace Companion

/-- A turn of a controller: it asks its next list or watch, is answered, selects the next item,
heeds its token, goes on to what comes next, or takes a turn in a step. -/
inductive Turn where
  | ask
  | hear (answer : Answer)
  | take
  | heed
  | proceed
  | act (turn : Flow.Turn)

/-- A controller at its start. -/
def start : Companion k := ⟨false, .start, [], .empty, .selecting⟩

/-- Whether a controller has come to its end, and whether this was a stop. -/
def ended? (c : Companion k) : Option Bool :=
  match c.phase with
  | .stopped => some true
  | .brokenOff => some false
  | _ => none

/-- The next item is selected. -/
def take? (c : Companion k) : Option (Companion k) :=
  match c.upcoming with
  | [] => none
  | item :: rest =>
    match Controller.steps? c.store item with
    | none => some { c with phase := .brokenOff }
    | some (steps, after) =>
      some { c with upcoming := rest, store := after, phase := .dispatching steps }

/-- The request that has been issued. -/
def request? : Flow.Effect → Option Request
  | .issued r => some r
  | .performed _ => none

/-- One turn of a controller with a handler, if it can take that turn, and the request that it
issues. -/
def step? (h : Handler k) (c : Companion k) (turn : Turn) : Option (Option Request × Companion k) :=
  match c.phase, turn with
  | .selecting, .ask =>
    if c.upcoming.isEmpty then some (some (c.watcher.request {}), { c with phase := .awaiting })
    else none
  | .awaiting, .hear answer =>
    let (items, watcher) := c.watcher.receive answer
    some (none, { c with watcher, upcoming := items, phase := .selecting })
  | .selecting, .take => c.take?.map fun c => (none, c)
  | .selecting, .heed => if c.fired then some (none, { c with phase := .stopped }) else none
  | .awaiting, .heed => if c.fired then some (none, { c with phase := .stopped }) else none
  | .dispatching [], .proceed => some (none, { c with phase := .selecting })
  | .dispatching (step :: left), .proceed =>
    some (none, { c with phase := .performing (.going (step.perform h)) left })
  | .performing (.going (.done ())) left, .proceed =>
    some (none, { c with phase := .dispatching left })
  | .performing flow left, .act turn =>
    (flow.step? turn).map fun (effect, flow) =>
      (request? effect, { c with phase := .performing flow left })
  | _, _ => none

/-- A controller that has come to its end takes no turn any more. -/
theorem step?_of_ended {h : Handler k} {c : Companion k} (hended : c.ended?.isSome) (turn : Turn) :
    c.step? h turn = none := by
  obtain ⟨fired, watcher, upcoming, store, phase⟩ := c
  cases phase with
  | stopped => cases turn <;> rfl
  | brokenOff => cases turn <;> rfl
  | _ => simp [ended?] at hended

end Companion

/-! ### Both flows -/

/-- Who issues a request. -/
inductive Party where
  | demonstration
  | controller
  deriving DecidableEq, Repr

/-- What has happened: a request has been issued, or an action of the demonstration is over. -/
inductive Event where
  | issued (party : Party) (request : Request)
  | performed (step : Performed)

/-- The demonstration, the controller once it has been started, and what has happened, in order. -/
structure Duo (k : Kind) where
  main : Flow (Except Failure Unit)
  controller : Option (Companion k)
  log : List Event

/-- The event that an effect of the demonstration is. -/
def Flow.Effect.event : Flow.Effect → Event
  | .issued r => .issued .demonstration r
  | .performed step => .performed step

/-- The actions of the demonstration that are over, in order. -/
def performed (log : List Event) : List Performed :=
  log.filterMap fun
    | .performed step => some step
    | .issued _ _ => none

namespace Duo

/-- A turn: one of the demonstration, one in which it meets the controller, or one of the
controller. -/
inductive Turn where
  | main (turn : Flow.Turn)
  | meet
  | controller (turn : Companion.Turn)

/-- The demonstration goes on after an action. -/
def pass (m : Duo k) (action : Action) (result : action.Result)
    (next : action.Result → Program (Except Failure Unit)) (controller : Option (Companion k)) :
    Duo k where
  main := .going (next result)
  controller := controller
  log := m.log ++ [.performed ⟨action, result⟩]

/-- The demonstration meets the controller, in an action that can be performed. -/
def meet? (m : Duo k) : Option (Duo k) :=
  match m.main with
  | .going (.perform (.startController k') next) =>
    if k' = k ∧ m.controller.isNone then
      some (m.pass (.startController k') () next (some .start))
    else none
  | .going (.perform .cancelController next) =>
    some (m.pass .cancelController () next
      (m.controller.map fun c => { c with fired := true }))
  | .going (.perform .joinController next) =>
    (m.controller.bind Companion.ended?).map fun ended =>
      m.pass .joinController ended next m.controller
  | .going (.perform .countCached next) =>
    some (m.pass .countCached ((m.controller.map fun c => c.store.size).getD (0 : Nat)) next
      m.controller)
  | _ => none

/-- One turn, if it can be taken. -/
def step? (m : Duo k) : Turn → Option (Duo k)
  | .main turn =>
    (m.main.step? turn).map fun (effect, main) =>
      { m with main, log := m.log ++ [effect.event] }
  | .meet => m.meet?
  | .controller turn =>
    m.controller.bind fun c =>
      (c.step? .statusProcessor turn).map fun (request, c) =>
        { m with
          controller := some c
          log := m.log ++ request.toList.map (.issued .controller) }

/-- Some turns, one after the other. -/
def steps? (m : Duo k) : List Turn → Option (Duo k)
  | [] => some m
  | turn :: turns => (m.step? turn).bind fun m => m.steps? turns

/-- A program at its start, before any controller. -/
def start (p : Program (Except Failure Unit)) : Duo k := ⟨.going p, none, []⟩

/-- The states that can be come to. -/
abbrev Reaches : Duo k → Duo k → Prop :=
  Relation.ReflTransGen fun m m' => ∃ turn, m.step? turn = some m'

theorem reaches_of_steps? {m m' : Duo k} {turns : List Turn} (h : m.steps? turns = some m') :
    Reaches m m' := by
  induction turns generalizing m with
  | nil => exact Option.some.inj h ▸ .refl
  | cons turn turns ih =>
    obtain ⟨next, hnext, hrest⟩ := Option.bind_eq_some_iff.mp h
    exact .head ⟨turn, hnext⟩ (ih hrest)

/-! ### What one turn does -/

/-- The controller has come to its end. -/
def HasEnded (m : Duo k) : Prop := ∃ c, m.controller = some c ∧ c.ended?.isSome

/-- What a turn has done: the demonstration has issued a request, an action of the demonstration is
over, or the controller has moved. -/
inductive Took (m m' : Duo k) : Prop
  | issued {r : Request} {deadline : Option Duration}
    {next : Option Answer → Program (Except Failure Unit)}
    (hmain : m.main.program = .perform (.send r deadline) next)
    (hleft : m'.main.program = m.main.program) (hcontroller : m'.controller = m.controller)
    (hlog : m'.log = m.log ++ [.issued .demonstration r])
  | passed {action : Action} {result : action.Result}
    {next : action.Result → Program (Except Failure Unit)}
    (hmain : m.main.program = .perform action next) (hleft : m'.main.program = next result)
    (hlog : m'.log = m.log ++ [.performed ⟨action, result⟩])
    (hstarted : m'.controller.isSome → m.controller.isSome ∨ ∃ k', action = .startController k')
    (hended : m.HasEnded → m'.HasEnded) (hjoined : action = .joinController → m.HasEnded)
  | moved {c c' : Companion k} {request : Option Request} (hc : m.controller = some c)
    (hgoing : ¬ c.ended?.isSome) (hmain : m'.main = m.main) (hcontroller : m'.controller = some c')
    (hlog : m'.log = m.log ++ request.toList.map (.issued .controller))

/-- An action that leaves the controller as it is. -/
theorem Took.of_passed {m m' : Duo k} {action : Action} {result : action.Result}
    {next : action.Result → Program (Except Failure Unit)}
    (hmain : m.main.program = .perform action next) (hleft : m'.main.program = next result)
    (hlog : m'.log = m.log ++ [.performed ⟨action, result⟩])
    (hcontroller : m'.controller = m.controller) (hjoined : action = .joinController → m.HasEnded) :
    Took m m' :=
  .passed hmain hleft hlog (fun h => Or.inl (by rwa [← hcontroller]))
    (fun h => by rwa [HasEnded, hcontroller]) hjoined

theorem took_of_flow {m : Duo k} {turn : Flow.Turn} {effect : Flow.Effect}
    {main : Flow (Except Failure Unit)} (h : m.main.step? turn = some (effect, main)) :
    Took m { m with main, log := m.log ++ [effect.event] } := by
  obtain ⟨r, deadline, next, rfl, hmain, hleft⟩ |
    ⟨action, result, next, rfl, hmain, hleft, hjoin, -⟩ := Flow.step?_cases h
  · exact .issued hmain hleft rfl rfl
  · exact .of_passed hmain hleft rfl rfl fun haction => absurd haction hjoin

/-- The controller of a demonstration that fires its token has ended if it had before. -/
theorem HasEnded.fire {m : Duo k} (h : m.HasEnded) (main : Flow (Except Failure Unit))
    (log : List Event) :
    HasEnded ⟨main, m.controller.map fun c => { c with fired := true }, log⟩ := by
  obtain ⟨c, hc, hended⟩ := h
  exact ⟨{ c with fired := true }, by rw [hc]; rfl, hended⟩

theorem took_of_meet? {m m' : Duo k} (h : m.meet? = some m') : Took m m' := by
  rw [meet?] at h
  split at h
  · next k' next hmain =>
    obtain ⟨⟨-, hnone⟩, hpassed⟩ := Option.ite_none_right_eq_some.mp h
    obtain rfl := Option.some.inj hpassed
    have hmain' : m.main.program = .perform (.startController k') next := by rw [hmain]; rfl
    refine .passed hmain' rfl rfl (fun _ => Or.inr ⟨k', rfl⟩) ?_ nofun
    rintro ⟨c, hc, -⟩
    simp [hc] at hnone
  · next next hmain =>
    obtain rfl := Option.some.inj h
    have hmain' : m.main.program = .perform .cancelController next := by rw [hmain]; rfl
    exact .passed hmain' rfl rfl (fun hsome => Or.inl (by simpa [pass] using hsome))
      (fun hended => hended.fire _ _) nofun
  · next next hmain =>
    obtain ⟨ended, hended, rfl⟩ := Option.map_eq_some_iff.mp h
    obtain ⟨c, hc, hended⟩ := Option.bind_eq_some_iff.mp hended
    have hmain' : m.main.program = .perform .joinController next := by rw [hmain]; rfl
    exact .of_passed hmain' rfl rfl rfl fun _ => ⟨c, hc, Option.isSome_of_eq_some hended⟩
  · next next hmain =>
    obtain rfl := Option.some.inj h
    have hmain' : m.main.program = .perform .countCached next := by rw [hmain]; rfl
    exact .of_passed hmain' rfl rfl rfl nofun
  · simp at h

/-- **What one turn does.** -/
theorem took_of_step? {m m' : Duo k} {turn : Turn} (h : m.step? turn = some m') : Took m m' := by
  cases turn with
  | main turn =>
    obtain ⟨⟨effect, main⟩, hstep, rfl⟩ := Option.map_eq_some_iff.mp h
    exact took_of_flow hstep
  | meet => exact took_of_meet? h
  | controller turn =>
    obtain ⟨c, hc, hstep⟩ := Option.bind_eq_some_iff.mp h
    obtain ⟨⟨request, c'⟩, hmoved, rfl⟩ := Option.map_eq_some_iff.mp hstep
    refine .moved hc (fun hended => ?_) rfl rfl rfl
    simp [Companion.step?_of_ended hended] at hmoved

/-! ### What holds of every state that can be come to -/

theorem performed_append (log log' : List Event) :
    performed (log ++ log') = performed log ++ performed log' :=
  List.filterMap_append

/-- An event of a log that has been continued is one of those before, or the new one. -/
theorem concat_eq_append_cons {log before after : List Event} {event new : Event}
    (h : log ++ [new] = before ++ event :: after) :
    (log = before ∧ new = event ∧ after = []) ∨
      ∃ after', after = after' ++ [new] ∧ log = before ++ event :: after' := by
  obtain rfl | ⟨after', last, rfl⟩ := after.eq_nil_or_concat
  · obtain ⟨rfl, hnew⟩ := List.append_inj' h rfl
    exact Or.inl ⟨rfl, List.singleton_inj.mp hnew, rfl⟩
  · rw [List.concat_eq_append, ← List.cons_append, ← List.append_assoc] at h
    obtain ⟨rfl, hnew⟩ := List.append_inj' h rfl
    obtain rfl := List.singleton_inj.mp hnew
    exact Or.inr ⟨after', List.concat_eq_append, rfl⟩

/-- What holds of every state that a program comes to beside its controller: the log tells how far
the program has come, a controller that has been waited for has ended and asks nothing more, and
none asks anything before it has been started. -/
structure Sound (p : Program (Except Failure Unit)) (m : Duo k) : Prop where
  path : p.Leads (performed m.log) m.main.program
  issued {before after : List Event} {r : Request}
    (h : m.log = before ++ .issued .demonstration r :: after) :
    ∃ deadline next, p.Leads (performed before) (.perform (.send r deadline) next)
  joined {before after : List Event} {ended : Action.joinController.Result}
    (h : m.log = before ++ .performed ⟨.joinController, ended⟩ :: after) :
    m.HasEnded ∧ ∀ r, .issued .controller r ∉ after
  started (h : m.controller.isSome ∨ ∃ r, .issued .controller r ∈ m.log) :
    ∃ x ∈ performed m.log, ∃ k', x.action = .startController k'

theorem sound_start (p : Program (Except Failure Unit)) : (start p : Duo k).Sound p where
  path := .refl p
  issued h := by simp [start] at h
  joined h := by simp [start] at h
  started h := by simp [start] at h

namespace Sound

variable {p : Program (Except Failure Unit)} {m m' : Duo k}

theorem of_issued (h : m.Sound p) {r : Request} {deadline : Option Duration}
    {next : Option Answer → Program (Except Failure Unit)}
    (hmain : m.main.program = .perform (.send r deadline) next)
    (hleft : m'.main.program = m.main.program) (hcontroller : m'.controller = m.controller)
    (hlog : m'.log = m.log ++ [.issued .demonstration r]) : m'.Sound p := by
  have hperformed : performed m'.log = performed m.log := by
    rw [hlog, performed_append]
    exact List.append_nil _
  constructor
  · rw [hperformed, hleft]
    exact h.path
  · intro before after r' hsplit
    obtain ⟨rfl, hnew, -⟩ | ⟨after', -, hbefore⟩ := concat_eq_append_cons (hlog ▸ hsplit)
    · obtain ⟨-, rfl⟩ := Event.issued.inj hnew
      exact ⟨deadline, next, hmain ▸ h.path⟩
    · exact h.issued hbefore
  · intro before after ended hsplit
    obtain ⟨-, hnew, -⟩ | ⟨after', rfl, hbefore⟩ := concat_eq_append_cons (hlog ▸ hsplit)
    · exact nomatch hnew
    · obtain ⟨hended, hquiet⟩ := h.joined hbefore
      exact ⟨by rwa [HasEnded, hcontroller], by simpa using hquiet⟩
  · rw [hperformed, hcontroller]
    intro hstarted
    exact h.started (by simpa [hlog] using hstarted)

theorem of_passed (h : m.Sound p) {action : Action} {result : action.Result}
    {next : action.Result → Program (Except Failure Unit)}
    (hmain : m.main.program = .perform action next) (hleft : m'.main.program = next result)
    (hlog : m'.log = m.log ++ [.performed ⟨action, result⟩])
    (hstarted : m'.controller.isSome → m.controller.isSome ∨ ∃ k', action = .startController k')
    (hended : m.HasEnded → m'.HasEnded) (hjoined : action = .joinController → m.HasEnded) :
    m'.Sound p := by
  have hperformed : performed m'.log = performed m.log ++ [⟨action, result⟩] := by
    rw [hlog, performed_append]
    rfl
  constructor
  · rw [hperformed, hleft]
    exact (hmain ▸ h.path).perform result
  · intro before after r hsplit
    obtain ⟨-, hnew, -⟩ | ⟨after', -, hbefore⟩ := concat_eq_append_cons (hlog ▸ hsplit)
    · exact nomatch hnew
    · exact h.issued hbefore
  · intro before after ended hsplit
    obtain ⟨-, hnew, rfl⟩ | ⟨after', rfl, hbefore⟩ := concat_eq_append_cons (hlog ▸ hsplit)
    · have haction : action = .joinController :=
        congrArg Performed.action (Event.performed.inj hnew)
      exact ⟨hended (hjoined haction), by simp⟩
    · obtain ⟨hended', hquiet⟩ := h.joined hbefore
      exact ⟨hended hended', by simpa using hquiet⟩
  · rw [hperformed]
    intro hbegun
    have hbefore : (m.controller.isSome ∨ ∃ r, .issued .controller r ∈ m.log) ∨
        ∃ k', action = .startController k' := by
      obtain hsome | ⟨r, hr⟩ := hbegun
      · exact (hstarted hsome).imp_left Or.inl
      · exact Or.inl (Or.inr ⟨r, by simpa [hlog] using hr⟩)
    obtain hbefore | hnow := hbefore
    · obtain ⟨x, hx, hstart⟩ := h.started hbefore
      exact ⟨x, List.mem_append_left _ hx, hstart⟩
    · exact ⟨⟨action, result⟩, by simp, hnow⟩

/-- The controller has not been waited for, since it takes a turn. -/
theorem of_moved (h : m.Sound p) {c : Companion k} {request : Option Request}
    (hc : m.controller = some c) (hgoing : ¬ c.ended?.isSome) (hmain : m'.main = m.main)
    (hlog : m'.log = m.log ++ request.toList.map (.issued .controller)) : m'.Sound p := by
  have hperformed : performed m'.log = performed m.log := by
    rw [hlog, performed_append]
    cases request <;> exact List.append_nil _
  have hunjoined : ∀ before ended after,
      m.log ≠ before ++ .performed ⟨.joinController, ended⟩ :: after := by
    intro before ended after hsplit
    obtain ⟨⟨c', hc', hended⟩, -⟩ := h.joined hsplit
    obtain rfl := Option.some.inj (hc.symm.trans hc')
    exact hgoing hended
  constructor
  · rw [hperformed, hmain]
    exact h.path
  · intro before after r hsplit
    cases request with
    | none => exact h.issued (by simpa [hlog] using hsplit)
    | some r' =>
      obtain ⟨-, hnew, -⟩ | ⟨after', -, hbefore⟩ := concat_eq_append_cons (hlog ▸ hsplit)
      · exact nomatch hnew
      · exact h.issued hbefore
  · intro before after ended hsplit
    cases request with
    | none => exact absurd (by simpa [hlog] using hsplit) (hunjoined before ended after)
    | some r' =>
      obtain ⟨-, hnew, -⟩ | ⟨after', -, hbefore⟩ := concat_eq_append_cons (hlog ▸ hsplit)
      · exact nomatch hnew
      · exact absurd hbefore (hunjoined _ _ _)
  · rw [hperformed]
    exact fun _ => h.started (Or.inl (Option.isSome_of_eq_some hc))

/-- One turn preserves it. -/
theorem step (h : m.Sound p) {turn : Turn} (hstep : m.step? turn = some m') : m'.Sound p := by
  cases took_of_step? hstep with
  | issued hmain hleft hcontroller hlog => exact h.of_issued hmain hleft hcontroller hlog
  | passed hmain hleft hlog hstarted hended hjoined =>
    exact h.of_passed hmain hleft hlog hstarted hended hjoined
  | moved hc hgoing hmain _ hlog => exact h.of_moved hc hgoing hmain hlog

end Sound

/-- **What holds of every state that can be come to.** The induction is on the turns. -/
theorem Reaches.sound {p : Program (Except Failure Unit)} {m : Duo k}
    (h : Reaches (start p) m) : m.Sound p := by
  induction h with
  | refl => exact sound_start p
  | tail _ hturn ih =>
    obtain ⟨turn, hstep⟩ := hturn
    exact ih.step hstep

end Duo

end CustomResource.Demo
