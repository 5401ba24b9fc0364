import CustomResource.Proofs.Controller.Processing

/-!
# What the target of a request tells

Paths are put together by plain concatenation: the group of a kind, a namespace, the plural of the
kind, a name, and perhaps one more word. As long as no slash gets into a namespace or a name, a path
falls into the pieces of which it was made, and from these together with the method one can tell
what the request is about. So a name like `status`, or one like the plural of a kind, leads nowhere
else than to the instance of that name, and kinds of one group stay apart.

## Scope

That a text is literal is asked of namespaces and names only as far as it takes to read them back.
It does not make a request one that can be sent: for that the URL has not to be too long either
(`Request.check`).

## Main definitions

* `Uri.IsLiteral`: the texts that stand in a path as they are and in one piece.
* `Request.target`: the method and the URL up to the parameters.
* `Instances.Operation`, `Instances.Purpose`: what can be asked of instances, with and without what
  stands in the body and the parameters.

## Main results

* `Instances.Operation.sent_perform`: what an operation sends.
* `Instances.toList_path`: the pieces of a path.
* `Uri.eq_of_intercalate_eq`: they can be read back.
* `Instances.eq_of_target_eq`: the target determines kind, namespace and purpose.
* `Instances.targets_tell_purposes`: the same of all that is sent, by clients and by the handler.
-/

namespace CustomResource

/-! ### Pieces -/

namespace Uri

/-- A text that stands in a path as it is and in one piece: its characters may stand there and end
neither the path nor a piece of it. -/
def IsLiteral (text : String) : Prop := text.toList.all isInner = true ∧ '/' ∉ text.toList

instance (text : String) : Decidable (IsLiteral text) := inferInstanceAs (Decidable (_ ∧ _))

theorem all_isInner_intercalate {pieces : List String} (h : ∀ piece ∈ pieces, IsLiteral piece) :
    (['/'].intercalate (pieces.map String.toList)).all isInner = true := by
  have hslash : isInner '/' = true := rfl
  induction pieces with
  | nil => rfl
  | cons piece rest ih =>
    obtain ⟨hpiece, hrest⟩ := List.forall_mem_cons.mp h
    have hrest := ih hrest
    cases rest with
    | nil => simpa using hpiece.1
    | cons piece' rest =>
      rw [List.map_cons, List.map_cons, List.intercalate_cons_cons, ← List.map_cons,
        List.all_append, List.all_append, hpiece.1, hrest, List.all_cons, hslash]
      rfl

/-- Pieces that have no slash in them can be read back. -/
theorem eq_of_intercalate_eq {pieces pieces' : List String} (hne : pieces ≠ [])
    (hne' : pieces' ≠ []) (h : ∀ piece ∈ pieces, IsLiteral piece)
    (h' : ∀ piece ∈ pieces', IsLiteral piece)
    (heq : ['/'].intercalate (pieces.map String.toList) =
      ['/'].intercalate (pieces'.map String.toList)) : pieces = pieces' := by
  have hsplit : ∀ {pieces : List String}, pieces ≠ [] → (∀ piece ∈ pieces, IsLiteral piece) →
      (['/'].intercalate (pieces.map String.toList)).splitOn '/' = pieces.map String.toList :=
    fun hne h => List.splitOn_intercalate '/'
      (List.forall_mem_map.mpr fun piece hpiece => (h piece hpiece).2) (by simpa using hne)
  have hlists := (hsplit hne h).symm.trans ((congrArg _ heq).trans (hsplit hne' h'))
  exact List.map_injective_iff.mpr (fun _ _ => String.toList_injective) hlists

end Uri

/-! ### Targets -/

namespace Request

/-- Where a request goes: its method, and its URL up to the parameters. -/
def target (r : Request) : Method × String :=
  (r.method, String.ofList (r.url.toList.takeWhile (· ≠ '?')))

/-- A path that nothing cuts off is the URL up to the parameters. -/
theorem target_eq {r : Request} (h : r.path.toList.all Uri.isInner = true) :
    r.target = (r.method, r.path) := by
  have hinner := fun c hc => Uri.isInner_iff.mp (List.all_eq_true.mp h c hc)
  have hmark : ∀ c ∈ r.path.toList, decide (c ≠ '?') = true :=
    fun c hc => by simpa using (hinner c hc).2.1
  have hhash : ∀ c ∈ r.path.toList, decide (c ≠ '#') = true :=
    fun c hc => by simpa using (hinner c hc).2.2
  have hfull : ∃ rest, r.fullText.toList = r.path.toList ++ rest ∧
      (rest = [] ∨ ∃ params, rest = '?' :: params) := by
    rw [fullText]
    cases r.query with
    | none => exact ⟨[], by simp, .inl rfl⟩
    | some params => exact ⟨'?' :: (Query.render params).toList, by simp, .inr ⟨_, rfl⟩⟩
  obtain ⟨rest, hrest, hend⟩ := hfull
  -- the number sign may cut off something of the parameters, but not the question mark
  have hcut : (rest.takeWhile (· ≠ '#')).takeWhile (· ≠ '?') = [] := by
    obtain rfl | ⟨params, rfl⟩ := hend <;> simp
  rw [target, url, String.toList_ofList, hrest, List.takeWhile_append_of_pos hhash,
    List.takeWhile_append_of_pos hmark, hcut, List.append_nil, String.ofList_toList]

/-- Whether a request can be sent, and where it goes, depends on its URL alone. -/
theorem check_eq_of_url_eq {r r' : Request} (h : r.url = r'.url) : r.check = r'.check := by
  rw [check, check, h]

theorem url_eq_of_path_eq {r r' : Request} (hpath : r.path = r'.path)
    (hquery : r.query = r'.query) : r.url = r'.url := by
  rw [url, url, fullText, fullText, hpath, hquery]

end Request

namespace Instances

variable {k k' : Kind}

/-! ### Operations -/

/-- What is asked of the instances of a kind in a namespace, apart from what is sent along. -/
inductive Purpose where
  | create
  | list
  | get (name : String)
  | update (name : String)
  | delete (name : String)
  | patch (name : String)
  | patchStatus (name : String)
  deriving DecidableEq, Repr

namespace Purpose

/-- The method of a request of some purpose. -/
def method : Purpose → Method
  | .create => .post
  | .list => .get
  | .get _ => .get
  | .update _ => .put
  | .delete _ => .delete
  | .patch _ => .patch
  | .patchStatus _ => .patch

/-- The pieces of the path behind the plural of the kind. -/
def pieces : Purpose → List String
  | .create => []
  | .list => []
  | .get name => [name]
  | .update name => [name]
  | .delete name => [name]
  | .patch name => [name]
  | .patchStatus name => [name, "status"]

/-- The name that a purpose has to do with is literal. -/
def IsLiteral (p : Purpose) : Prop := ∀ piece ∈ p.pieces, Uri.IsLiteral piece

instance (p : Purpose) : Decidable p.IsLiteral :=
  inferInstanceAs (Decidable (∀ piece ∈ p.pieces, Uri.IsLiteral piece))

theorem eq_of_method_eq {p p' : Purpose} (hmethod : p.method = p'.method)
    (hpieces : p.pieces = p'.pieces) : p = p' := by
  cases p <;> cases p' <;> simp_all [method, pieces]

end Purpose

/-- Something that is asked of the instances of a kind. -/
inductive Operation (k : Kind) where
  | create (o : Object k)
  | list (params : ListParams)
  | get (name : String)
  | update (o : Object k)
  | delete (name : String) (params : DeleteParams)
  | patch (name : String) (p : Patch)
  | patchStatus (name : String) (status : Status)

namespace Operation

/-- The purpose of an operation. A replacement by an object without a name has none. -/
def purpose? : Operation k → Option Purpose
  | .create _ => some .create
  | .list _ => some .list
  | .get name => some (.get name)
  | .update o => o.metadata.name.map .update
  | .delete name _ => some (.delete name)
  | .patch name _ => some (.patch name)
  | .patchStatus name _ => some (.patchStatus name)

/-- The name that an operation has to do with is literal. -/
def IsLiteral (op : Operation k) : Prop := ∀ p ∈ op.purpose?, p.IsLiteral

instance (op : Operation k) : Decidable op.IsLiteral :=
  inferInstanceAs (Decidable (∀ p ∈ op.purpose?, p.IsLiteral))

/-- Carries an operation out. -/
def perform (c : Instances k) : Operation k → Task Unit
  | .create o => do let _ ← c.create o
  | .list params => do let _ ← c.list params
  | .get name => do let _ ← c.get name
  | .update o => do let _ ← c.update o
  | .delete name params => c.delete name params
  | .patch name p => do let _ ← c.patch name p
  | .patchStatus name status => do let _ ← c.patchStatus name status

/-- The request of an operation. There is none for a replacement by an object without a name, nor
for a list with parameters that do not go together. -/
def request? (c : Instances k) : Operation k → Option Request
  | .create o => some (.create c.endpoint o.encode)
  | .list params => if params.check.isOk then some (.list c.endpoint params.query) else none
  | .get name => some (.read c.endpoint name)
  | .update o => o.metadata.name.map fun name => .replace c.endpoint name o.encode
  | .delete name params => some (.delete c.endpoint name params.encode)
  | .patch name p => some (.patch c.endpoint name p)
  | .patchStatus name status => some (.patchStatus c.endpoint name (.merge status.patchBody))

/-- What is done with the outcome of a task sends nothing. -/
theorem sent_bind_pure {α : Type} (t : Task α) {σ : Type} (meaning : Meaning σ) (state : σ) :
    (t >>= fun _ => (pure () : Task Unit)).run.sent meaning state = t.run.sent meaning state := by
  rw [ExceptT.run_bind, Program.sent_bind]
  generalize (t.run.run meaning state).1 = outcome
  cases outcome <;> exact List.append_nil _

/-- **What an operation sends**: its request, if there is one and it can be sent. -/
theorem sent_perform (c : Instances k) (op : Operation k) {σ : Type} (meaning : Meaning σ)
    (state : σ) : (op.perform c).run.sent meaning state =
      (op.request? c).toList.filter fun r => r.check.isOk := by
  have hcall : ∀ {α : Type} (r : Request) (read : Answer → Except Api.Error α),
      (Task.call r read).run.sent meaning state =
        (some r).toList.filter fun r => r.check.isOk := by
    intro α r read
    rw [Task.sent_call, Option.toList_some, List.filter_singleton]
    cases r.check.isOk <;> rfl
  cases op with
  | create o => exact (sent_bind_pure _ meaning state).trans (hcall _ _)
  | get name => exact (sent_bind_pure _ meaning state).trans (hcall _ _)
  | patch name p => exact (sent_bind_pure _ meaning state).trans (hcall _ _)
  | patchStatus name status => exact (sent_bind_pure _ meaning state).trans (hcall _ _)
  | delete name params => exact hcall _ _
  | list params =>
    rw [perform, sent_bind_pure, Instances.list, request?]
    cases params.check with
    | error e => rfl
    | ok => exact hcall _ _
  | update o =>
    rw [perform, sent_bind_pure, Instances.update, request?]
    cases o.metadata.name with
    | none => rfl
    | some name => exact hcall _ _

end Operation

/-! ### Paths -/

/-- The path of a request of some purpose. -/
def Purpose.path (c : Instances k) : Purpose → String
  | .create => c.endpoint.path
  | .list => c.endpoint.path
  | .get name => c.endpoint.item name
  | .update name => c.endpoint.item name
  | .delete name => c.endpoint.item name
  | .patch name => c.endpoint.item name
  | .patchStatus name => c.endpoint.status name

theorem Operation.exists_purpose {c : Instances k} {op : Operation k} {r : Request}
    (h : op.request? c = some r) :
    ∃ p, op.purpose? = some p ∧ r.method = p.method ∧ r.path = p.path c := by
  cases op with
  | list params =>
    rw [request?] at h
    split at h
    · exact ⟨.list, rfl, by cases h; exact ⟨rfl, rfl⟩⟩
    · simp at h
  | update o =>
    obtain ⟨name, hname, rfl⟩ := Option.map_eq_some_iff.mp h
    exact ⟨.update name, by rw [purpose?, hname]; rfl, rfl, rfl⟩
  | _ => exact ⟨_, rfl, by cases h; exact ⟨rfl, rfl⟩⟩

/-- The pieces of a path. Nothing stands before the first slash. -/
def pathPieces (c : Instances k) (p : Purpose) : List String :=
  ["", "apis", k.group, "v1", "namespaces", c.scope, k.plural] ++ p.pieces

theorem toList_path (c : Instances k) (p : Purpose) :
    (p.path c).toList = ['/'].intercalate ((c.pathPieces p).map String.toList) := by
  have hslash : "/".toList = ['/'] := rfl
  have hroot : "/apis/".toList = '/' :: "apis".toList ++ ['/'] := rfl
  have hscope : "/namespaces/".toList = '/' :: "namespaces".toList ++ ['/'] := rfl
  have hstatus : "/status".toList = '/' :: "status".toList := rfl
  cases p <;>
    simp [Purpose.path, pathPieces, Purpose.pieces, Endpoint.status, Endpoint.item, Endpoint.path,
      endpoint, Endpoint.instances, Kind.apiVersion, Kind.version, List.intercalate_cons_cons,
      hslash, hroot, hscope, hstatus]

theorem isLiteral_of_mem_pathPieces {c : Instances k} {p : Purpose}
    (hscope : Uri.IsLiteral c.scope) (hp : p.IsLiteral) :
    ∀ piece ∈ c.pathPieces p, Uri.IsLiteral piece := by
  have hkind : ∀ k : Kind, Uri.IsLiteral k.group ∧ Uri.IsLiteral k.plural := by
    intro k
    cases k <;> decide
  have hfixed : ∀ piece ∈ ["", "apis", "v1", "namespaces"], Uri.IsLiteral piece := by decide
  simp only [List.forall_mem_cons] at hfixed
  obtain ⟨hempty, hroot, hversion, hscopes, -⟩ := hfixed
  simp only [pathPieces, List.forall_mem_append, List.forall_mem_cons]
  exact ⟨⟨hempty, hroot, (hkind k).1, hversion, hscopes, hscope, (hkind k).2, by simp⟩, hp⟩

/-- The target of a request with the path of some purpose. -/
theorem target_eq_of_path_eq {c : Instances k} {p : Purpose} (hscope : Uri.IsLiteral c.scope)
    (hp : p.IsLiteral) {r : Request} (hpath : r.path = p.path c) :
    r.target = (r.method, p.path c) := by
  rw [← hpath]
  refine Request.target_eq ?_
  rw [hpath, toList_path]
  exact Uri.all_isInner_intercalate (isLiteral_of_mem_pathPieces hscope hp)

/-- **The path of a purpose falls into the pieces of which it was made**, and these tell the kind
and the namespace. -/
theorem eq_of_path_eq {c : Instances k} {c' : Instances k'} {p p' : Purpose}
    (hscope : Uri.IsLiteral c.scope) (hscope' : Uri.IsLiteral c'.scope) (hp : p.IsLiteral)
    (hp' : p'.IsLiteral) (heq : p.path c = p'.path c') :
    k = k' ∧ c.scope = c'.scope ∧ p.pieces = p'.pieces := by
  have hlists := congrArg String.toList heq
  rw [toList_path, toList_path] at hlists
  have hpieces := Uri.eq_of_intercalate_eq (by simp [pathPieces]) (by simp [pathPieces])
    (isLiteral_of_mem_pathPieces hscope hp) (isLiteral_of_mem_pathPieces hscope' hp') hlists
  simp only [pathPieces, List.cons_append, List.nil_append, List.cons.injEq, true_and] at hpieces
  obtain ⟨-, hscopes, hplural, hrest⟩ := hpieces
  -- no two kinds have one plural, so those of one group are told apart by it
  have hkind : k = k' := by
    cases k <;> cases k' <;> first | rfl | exact absurd hplural (by decide)
  exact ⟨hkind, hscopes, hrest⟩

/-- **The target determines kind, namespace and purpose.** -/
theorem eq_of_target_eq {c : Instances k} {c' : Instances k'} {op : Operation k}
    {op' : Operation k'} (hscope : Uri.IsLiteral c.scope) (hscope' : Uri.IsLiteral c'.scope)
    (hop : op.IsLiteral) (hop' : op'.IsLiteral) {r r' : Request} (hr : op.request? c = some r)
    (hr' : op'.request? c' = some r') (heq : r.target = r'.target) :
    k = k' ∧ c.scope = c'.scope ∧ op.purpose? = op'.purpose? := by
  obtain ⟨p, hp, hmethod, hpath⟩ := Operation.exists_purpose hr
  obtain ⟨p', hp', hmethod', hpath'⟩ := Operation.exists_purpose hr'
  rw [target_eq_of_path_eq hscope (hop p hp) hpath,
    target_eq_of_path_eq hscope' (hop' p' hp') hpath', hmethod, hmethod', Prod.mk.injEq] at heq
  obtain ⟨hkind, hscopes, hpieces⟩ := eq_of_path_eq hscope hscope' (hop p hp) (hop' p' hp') heq.2
  rw [hp, hp', Purpose.eq_of_method_eq heq.1 hpieces]
  exact ⟨hkind, hscopes, rfl⟩

/-! ### The handler -/

theorem sent_patchStatus (c : Instances k) (name : String) (status : Status) {σ : Type}
    (meaning : Meaning σ) (state : σ) : (c.patchStatus name status).run.sent meaning state =
      if (Request.patchStatus c.endpoint name (.merge status.patchBody)).check.isOk then
        [.patchStatus c.endpoint name (.merge status.patchBody)]
      else [] :=
  Task.sent_call meaning _ _ state

/-- What the handler sends about a new object is what a client of its kind and namespace sends. -/
theorem sent_onAdd (o : Object k) {σ : Type} (meaning : Meaning σ) (state : σ) :
    (Handler.statusProcessor.onAdd o).sent meaning state =
      if o.needsProcessing then
        ((⟨o.metadata.namespaceName.getD ""⟩ : Instances k).patchStatus o.name .processed).run.sent
          meaning state
      else [] := by
  change (Handler.process o).sent meaning state = _
  rw [Handler.process, Program.sent_bind, Program.sent_log, List.nil_append]
  split
  · rw [Program.sent_bind, sent_patchStatus, sent_patchStatus]
    -- what is told about the outcome is no request
    refine (congrArg _ ?_).trans (List.append_nil _)
    split <;> rfl
  · rfl

/-- The status that is sent plays no part in where it is sent. -/
theorem map_target_patchStatus (c : Instances k) (name : String) (status status' : Status)
    {σ σ' : Type} (meaning : Meaning σ) (state : σ) (meaning' : Meaning σ') (state' : σ') :
    ((c.patchStatus name status).run.sent meaning state).map Request.target =
      ((c.patchStatus name status').run.sent meaning' state').map Request.target := by
  have hurl : (Request.patchStatus c.endpoint name (.merge status.patchBody)).url =
      (Request.patchStatus c.endpoint name (.merge status'.patchBody)).url :=
    Request.url_eq_of_path_eq rfl rfl
  rw [sent_patchStatus, sent_patchStatus, Request.check_eq_of_url_eq hurl]
  split
  · rw [List.map_singleton, List.map_singleton, Request.target, Request.target, hurl]
    rfl
  · rfl

/-! ### The targets of all that is sent -/

/-- **The target of a request tells what it is about.** An operation sends its request if there is
one that can be sent, and nothing else. As long as namespaces and names are literal, any two
requests of operations, of whatever kinds and in whatever namespaces, that have one method and one
URL up to the parameters are about the same kind and namespace and have the same purpose, name
included. What the handler sends about a new object goes where a client of its kind and namespace
sends a status under its name, whatever the status and whatever is answered. -/
theorem targets_tell_purposes :
    (∀ (k : Kind) (c : Instances k) (op : Operation k) (σ : Type) (meaning : Meaning σ) (state : σ),
      (op.perform c).run.sent meaning state =
        (op.request? c).toList.filter fun r => r.check.isOk) ∧
    (∀ (k k' : Kind) (c : Instances k) (c' : Instances k') (op : Operation k) (op' : Operation k')
      (r r' : Request), Uri.IsLiteral c.scope → Uri.IsLiteral c'.scope → op.IsLiteral →
      op'.IsLiteral → op.request? c = some r → op'.request? c' = some r' → r.target = r'.target →
      k = k' ∧ c.scope = c'.scope ∧ op.purpose? = op'.purpose?) ∧
    ∀ (k : Kind) (o : Object k) (status : Status) (σ σ' : Type) (meaning : Meaning σ) (state : σ)
      (meaning' : Meaning σ') (state' : σ'),
      ((Handler.statusProcessor.onAdd o).sent meaning state).map Request.target =
        if o.needsProcessing then
          (((⟨o.metadata.namespaceName.getD ""⟩ : Instances k).patchStatus o.name status).run.sent
            meaning' state').map Request.target
        else [] := by
  refine ⟨fun k c op σ meaning state => Operation.sent_perform c op meaning state,
    fun k k' c c' op op' r r' hscope hscope' hop hop' hr hr' heq =>
      eq_of_target_eq hscope hscope' hop hop' hr hr' heq, ?_⟩
  intro k o status σ σ' meaning state meaning' state'
  rw [sent_onAdd]
  split
  · exact map_target_patchStatus _ _ _ _ meaning state meaning' state'
  · rfl

/-- Two lists with different parameters have one target and one purpose. An instance that is named
`status` is told from the status of one, and two kinds of one group from each other even where each
is given the plural of the other one as its namespace. -/
theorem odd_names_told_apart :
    (Request.list (.instances .example "crd") [("limit", "1")]).target =
        (Request.list (.instances .example "crd") []).target ∧
      (Operation.list (k := .example) { limit := some 1 }).purpose? =
        (Operation.list (k := .example) {}).purpose? ∧
      (Request.patch (.instances .example "crd") "status" (.merge .null)).target ≠
        (Request.patchStatus (.instances .example "crd") "status"
          (.merge Status.processed.patchBody)).target ∧
      (Request.read (.instances .example "jinghzhus") "status").target ≠
        (Request.read (.instances .jinghzhu "examples") "status").target := by
  obtain ⟨-, htell, -⟩ := targets_tell_purposes
  have hscope : Uri.IsLiteral "crd" := by decide
  have hlist : ∀ params, (Request.list (.instances .example "crd") params).target =
      (.get, Purpose.list.path (⟨"crd"⟩ : Instances .example)) :=
    fun _ => target_eq_of_path_eq hscope (by decide) rfl
  have hlists := (hlist [("limit", "1")]).trans (hlist []).symm
  refine ⟨hlists, ?_, fun heq => ?_, fun heq => ?_⟩
  · exact (htell .example .example ⟨"crd"⟩ ⟨"crd"⟩ (.list { limit := some 1 }) (.list {}) _ _
      hscope hscope (by decide) (by decide) rfl rfl hlists).2.2
  · have hsame := htell .example .example ⟨"crd"⟩ ⟨"crd"⟩ (.patch "status" (.merge .null))
      (.patchStatus "status" .processed) _ _ hscope hscope (by decide) (by decide) rfl rfl heq
    exact absurd hsame.2.2 (by decide)
  · have hsame := htell .example .jinghzhu ⟨"jinghzhus"⟩ ⟨"examples"⟩ (.get "status")
      (.get "status") _ _ (by decide) (by decide) (by decide) (by decide) rfl rfl heq
    exact absurd hsame.1 (by decide)

end Instances

end CustomResource
