import CustomResource.Proofs.Api.StatusPatch
import CustomResource.Proofs.Program.Path

/-!
# Requests one after another

Some changes of an instance take several requests, each of which is made only if the one before it
has been answered by an object. Here is how far such a program can have come, and what it comes to
in a world that answers. The requests can be sent if the names in their paths stand for themselves.

## Main definitions

* `Instances.Shows`: an answer from which an object is read as from a document.
* `Instances.Reaches`: the instances whose requests can be sent.

## Main results

* `Task.run_request_of_understood`, `run_request_bind_of_understood`: requests that are answered.
* `Task.leads_request_bind`: how far a request and what comes after it have come.
* `Task.eq_of_request_bind`: what comes of the answer of the request at which a program is.
-/

namespace CustomResource

/-! ### In a world that answers -/

namespace Task

variable {α β σ : Type} {decoder : Decoder α} {r : Request} {meaning : Meaning σ}

theorem run_request (decoder : Decoder α) (r : Request) : (request decoder r).run =
    exchange r (Answer.decode decoder) >>= fun outcome => pure (outcome.mapError .request) := rfl

theorem run_request_of_understood (hr : r.check = .ok ()) {s : σ} {value : α}
    (h : understood (Answer.decode decoder) (meaning (.send r none) s).1 = .ok value) :
    (request decoder r).run.run meaning s = (.ok value, (meaning (.send r none) s).2) := by
  rw [run_request, Program.run_bind, run_exchange_of_sendable hr, h]
  rfl

theorem run_request_bind_of_understood (hr : r.check = .ok ()) {s : σ} {value : α}
    (h : understood (Answer.decode decoder) (meaning (.send r none) s).1 = .ok value)
    (next : α → Task β) :
    (request decoder r >>= next).run.run meaning s =
      (next value).run.run meaning (meaning (.send r none) s).2 := by
  rw [ExceptT.run_bind, Program.run_bind, run_request_of_understood hr h]

/-! ### How far a program has come -/

/-- What comes after a request, from what was understood of the answer. -/
def proceed (f : α → Task β) : Except Api.Error α → Program (Except Error β)
  | .ok value => (f value).run
  | .error e => .done (.error (.request e))

theorem run_request_bind (hr : r.check = .ok ()) (f : α → Task β) :
    (request decoder r >>= f).run = .perform (.send r none) fun answer : Option Answer =>
      proceed f (understood (Answer.decode decoder) answer) := by
  rw [ExceptT.run_bind, run_request, exchange, hr]
  refine congrArg (Program.perform _) (funext fun answer => ?_)
  cases (answer : Option Answer) with
  | none => rfl
  | some a =>
    change Program.bind (.done ((Answer.decode decoder a).mapError Error.request)) _ =
      proceed f (Answer.decode decoder a)
    cases Answer.decode decoder a <;> rfl

/-- A request that cannot be sent fails, and nothing comes after it. -/
theorem run_request_bind_of_fault {fault : Api.Error} (hr : r.check = .error fault)
    (f : α → Task β) :
    (request decoder r >>= f).run = .done (.error (.request fault)) := by
  rw [ExceptT.run_bind, run_request, exchange, hr]
  rfl

/-- **How far a request and what comes after it have come**: it has not been sent yet, or it has
been answered and the program goes on with what was understood. -/
theorem leads_request_bind {f : α → Task β} {path : List Program.Performed}
    {left : Program (Except Error β)} (h : Program.Leads (request decoder r >>= f).run path left) :
    (path = [] ∧ left = (request decoder r >>= f).run) ∨
      ∃ answer rest, path = ⟨.send r none, answer⟩ :: rest ∧
        Program.Leads (proceed f (understood (Answer.decode decoder) answer)) rest left := by
  cases hr : r.check with
  | error fault =>
    rw [run_request_bind_of_fault hr] at h ⊢
    exact .inl h.of_done
  | ok =>
    rw [run_request_bind hr] at h ⊢
    cases h with
    | refl => exact .inl ⟨rfl, rfl⟩
    | step h => exact .inr ⟨_, _, rfl, h⟩

/-- A program that starts with a request, and is at some request, is at that one. -/
theorem eq_of_request_bind {f : α → Task β} {r' : Request} {limit : Option Duration}
    {next : Option Answer → Program (Except Error β)}
    (h : (request decoder r >>= f).run = .perform (.send r' limit) next) :
    r' = r ∧ limit = none ∧
      ∀ answer, next answer = proceed f (understood (Answer.decode decoder) answer) := by
  cases hr : r.check with
  | error fault =>
    rw [run_request_bind_of_fault hr] at h
    exact nomatch h
  | ok =>
    rw [run_request_bind hr] at h
    injection h with haction hnext
    injection haction with hrequest hlimit
    subst hrequest hlimit
    exact ⟨rfl, rfl, fun answer => (congrFun hnext answer).symm⟩

end Task

/-! ### Requests about an instance -/

namespace Instances

/-- From an answer the same objects are read as from a document. -/
def Shows (k : Kind) (answer : Option Answer) (doc : Json) : Prop :=
  ∀ o : Object k, Task.understood (Answer.decode (Object.decode k)) answer = .ok o ↔
    Decoder.ofJson (Object.decode k) doc = .ok o

variable {k : Kind}

/-- An object that has a name replaces the instance of that name. -/
theorem update_of_name (c : Instances k) {o : Object k} {name : String}
    (h : o.metadata.name = some name) :
    c.update o = Task.request (Object.decode k) (.replace c.endpoint name o.encode) := by
  rw [update, h]
  rfl

/-- The requests about an instance can be sent: its namespace and its name stand for themselves in a
path, and are not too long. -/
structure Reaches (c : Instances k) (name : String) : Prop where
  scope_segment : Uri.isSegment c.scope = true
  name_segment : Uri.isSegment name = true
  size : (c.endpoint.status name).utf8ByteSize < Uri.greatestSize

namespace Reaches

variable {c : Instances k} {name : String}

theorem all_isInner_path (h : c.Reaches name) : c.endpoint.path.toList.all Uri.isInner = true := by
  have hroot : ("/apis/" ++ k.apiVersion ++ "/namespaces/").toList.all Uri.isInner = true := by
    cases k <;> rfl
  have hplural : ("/" ++ k.plural).toList.all Uri.isInner = true := by cases k <;> rfl
  have hpath : c.endpoint.path =
      "/apis/" ++ k.apiVersion ++ "/namespaces/" ++ c.scope ++ ("/" ++ k.plural) := by
    simp [Instances.endpoint, Endpoint.instances, Endpoint.path, String.append_assoc]
  rw [hpath, String.toList_append, String.toList_append, List.all_append, List.all_append, hroot,
    hplural, Uri.all_isInner_of_isSegment h.scope_segment]
  rfl

theorem head?_path (c : Instances k) : c.endpoint.path.toList.head? = some '/' := by
  have hroot : ("/apis/" ++ k.apiVersion).toList.head? = some '/' := by cases k <;> rfl
  simp [Instances.endpoint, Endpoint.instances, Endpoint.path, String.toList_append]

theorem check_item (h : c.Reaches name) {r : Request} (hquery : r.query = some [] ∨ r.query = none)
    (hpath : r.path = c.endpoint.item name) : r.check = .ok () := by
  have hsize := h.size
  rw [Endpoint.status, String.utf8ByteSize_append] at hsize
  refine Request.check_of_path hquery ?_ ?_ (hpath ▸ by omega)
  · exact hpath ▸ Endpoint.head?_item (head?_path c) name
  · exact hpath ▸ Endpoint.all_isInner_item h.all_isInner_path h.name_segment

theorem check_status (h : c.Reaches name) (p : Patch) :
    (Request.patchStatus c.endpoint name p).check = .ok () := by
  have hitem := Endpoint.all_isInner_item h.all_isInner_path h.name_segment
  have hend : "/status".toList.all Uri.isInner = true := rfl
  refine Request.check_of_path (.inl rfl) ?_ ?_ h.size
  · rw [Request.patchStatus, Endpoint.status, String.toList_append, List.head?_append,
      Endpoint.head?_item (head?_path c)]
    rfl
  · rw [Request.patchStatus, Endpoint.status, String.toList_append, List.all_append, hitem, hend]
    rfl

/-- A replacement that can be sent. -/
theorem run_update_bind {β : Type} (h : c.Reaches name) {o : Object k}
    (hname : o.metadata.name = some name) (f : Object k → Task β) :
    (c.update o >>= f).run = .perform (.send (.replace c.endpoint name o.encode) none)
      fun answer : Option Answer =>
        Task.proceed f (Task.understood (Answer.decode (Object.decode k)) answer) := by
  rw [c.update_of_name hname]
  exact Task.run_request_bind (h.check_item (.inl rfl) rfl) f

end Reaches

end Instances

end CustomResource
