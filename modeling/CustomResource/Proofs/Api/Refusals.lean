import CustomResource.Api.Deletion
import CustomResource.Proofs.Api.Paths
import CustomResource.Proofs.Program.Calls

/-!
# Refusals

Callers tell two refusals from all other errors: that an object exists already, and that there is no
such object. Which answers come out as one of these depends on the status of HTTP and on the body
together. A body that describes a refusal is taken at its word as long as the status is one of a
failure; the status itself only counts where the body describes nothing. All readers of answers
agree on this, and nothing that goes wrong elsewhere has a code.

## Main definitions

* `Answer.Refuses`: an answer refuses a request with a code.
* `Answer.IsReader`: what can be made of answers.

## Main results

* `Answer.IsReader.exists_code_iff`: a reader yields a refusal with a code exactly for such answers.
* `Task.exists_code_call_iff`: the same of a request, in any world.
* `Error.code?_eq_some_iff`: which errors have a code.
-/

namespace CustomResource

/-! ### The text of some bytes -/

/-- Bytes have a text exactly if they are its UTF-8 form. -/
theorem Text.decodeUtf8_eq_ok_iff {body : ByteArray} {text : String} :
    decodeUtf8 body = .ok text ↔ body = text.toUTF8 := by
  rw [decodeUtf8, String.fromUTF8?]
  constructor
  · intro h
    split at h
    · next text' hsome =>
      obtain rfl := Except.ok.inj h
      split at hsome
      · rw [← Option.some.inj hsome]
        rfl
      · simp at hsome
    · simp at h
  · rintro rfl
    have hvalid : text.toUTF8.IsValidUTF8 := text.isValidUTF8
    rw [dif_pos hvalid]
    rfl

/-- The text of the UTF-8 form of a text. -/
theorem Text.decodeUtf8_toUTF8 (s : String) : decodeUtf8 s.toUTF8 = .ok s :=
  decodeUtf8_eq_ok_iff.mpr rfl

/-! ### Answers -/

namespace Answer

variable {a : Answer} {code : Nat}

/-- An answer refuses a request with a code: it has a status of a failure and a body of text, and
the code is the one that the body gives or, if the body describes no refusal, the status. -/
inductive Refuses (code : Nat) : Answer → Prop
  | described {status : Nat} {text : String} {r : ErrorResponse}
      (failed : 400 ≤ status ∧ status < 600)
      (read : Decoder.ofText ErrorResponse.decode text = .ok r) (same : r.code = code) :
      Refuses code (.response status text.toUTF8)
  | undescribed {text : String} {fault : DecodeError} (failed : 400 ≤ code ∧ code < 600)
      (unread : Decoder.ofText ErrorResponse.decode text = .error fault) :
      Refuses code (.response code text.toUTF8)

theorem isFailure_iff {status : Nat} : isFailure status = true ↔ 400 ≤ status ∧ status < 600 := by
  simp [isFailure]

theorem exists_code_text_iff :
    (∃ e, a.text = .error e ∧ e.code? = some code) ↔ a.Refuses code := by
  constructor
  · rintro ⟨e, he, hcode⟩
    cases a with
    | noConnection reason behind =>
      obtain rfl := Except.error.inj he
      simp [Api.Error.code?] at hcode
    | response status body =>
      rw [text] at he
      cases hbody : Text.decodeUtf8 body with
      | error f =>
        rw [hbody] at he
        obtain rfl := Except.error.inj he
        simp [Api.Error.code?] at hcode
      | ok text =>
        rw [hbody] at he
        obtain rfl := Text.decodeUtf8_eq_ok_iff.mp hbody
        dsimp only at he
        split at he
        · next hfailed =>
          have hfailed := isFailure_iff.mp hfailed
          obtain rfl := Except.error.inj he
          have hcode : (refusal status text).code = code := Option.some.inj hcode
          cases hread : Decoder.ofText ErrorResponse.decode text with
          | ok r =>
            rw [refusal, hread] at hcode
            exact .described hfailed hread hcode
          | error fault =>
            rw [refusal, hread] at hcode
            obtain rfl : status = code := hcode
            exact .undescribed hfailed hread
        · simp at he
  · intro h
    cases h with
    | @described status text r failed read same =>
      refine ⟨.refused (refusal status text), ?_, ?_⟩
      · rw [Answer.text, Text.decodeUtf8_toUTF8]
        exact if_pos (isFailure_iff.mpr failed)
      · rw [refusal, read]
        exact congrArg some same
    | @undescribed text fault failed unread =>
      refine ⟨.refused (refusal code text), ?_, ?_⟩
      · rw [Answer.text, Text.decodeUtf8_toUTF8]
        exact if_pos (isFailure_iff.mpr failed)
      · rw [refusal, unread]
        rfl

/-! ### Readers -/

/-- An outcome is no refusal. -/
def Uncoded {α : Type} (outcome : Except Api.Error α) : Prop :=
  ∀ e, outcome = .error e → e.code? = none

namespace Uncoded

variable {α β : Type}

theorem ok (value : α) : Uncoded (.ok value) := nofun

/-- A value that cannot be read is no refusal. -/
theorem mapError_undecodable (outcome : Except DecodeError α) :
    Uncoded (outcome.mapError .undecodable) := by
  intro e he
  cases outcome with
  | error fault =>
    obtain rfl := Except.error.inj he
    rfl
  | ok value => exact nomatch he

theorem bind {outcome : Except Api.Error α} (h : Uncoded outcome) {next : α → Except Api.Error β}
    (hnext : ∀ value, Uncoded (next value)) : Uncoded (outcome >>= next) := by
  cases outcome with
  | error e =>
    intro e' he
    obtain rfl := Except.error.inj he
    exact h e rfl
  | ok value => exact hnext value

end Uncoded

/-- What can be made of answers: the value that they hold, or that something has been deleted. -/
inductive IsReader : {α : Type} → (Answer → Except Api.Error α) → Prop
  | value {α : Type} (decoder : Decoder α) : IsReader (decode decoder)
  | deletion {α : Type} (decoder : Decoder α) : IsReader (Deletion.decode decoder)

namespace IsReader

variable {α : Type} {read : Answer → Except Api.Error α}

theorem of_text_error (h : IsReader read) {e : Api.Error} (ha : a.text = .error e) :
    read a = .error e := by
  cases h with
  | value decoder => rw [decode, ha]
  | deletion decoder =>
    rw [Deletion.decode, ha]
    rfl

/-- What is wrong with a value in the text has no code. -/
theorem uncoded_of_text_ok (h : IsReader read) {text : String} (ha : a.text = .ok text) :
    Uncoded (read a) := by
  cases h with
  | value decoder =>
    rw [decode, ha]
    exact .mapError_undecodable _
  | deletion decoder =>
    rw [Deletion.decode, ha]
    refine (Uncoded.mapError_undecodable (Decoder.ofText Decoder.json text)).bind fun value => ?_
    dsimp only
    split
    · exact .mapError_undecodable _
    · exact (Uncoded.mapError_undecodable _).bind fun _ => .ok ()

/-- **A reader yields a refusal with a code** exactly for the answers that refuse with it. -/
theorem exists_code_iff (h : IsReader read) :
    (∃ e, read a = .error e ∧ e.code? = some code) ↔ a.Refuses code := by
  rw [← exists_code_text_iff]
  cases ha : a.text with
  | error e => simp only [h.of_text_error ha, Except.error.injEq]
  | ok text =>
    refine ⟨fun ⟨e, he, hcode⟩ => ?_, fun ⟨e, he, _⟩ => nomatch he⟩
    rw [h.uncoded_of_text_ok ha e he] at hcode
    exact nomatch hcode

end IsReader

end Answer

/-! ### Errors -/

namespace Error

variable {e : Error} {code : Nat}

/-- **Which errors have a code**: the refusals of requests alone. An error that tells of another one
has none, whatever the other one is. -/
theorem code?_eq_some_iff :
    e.code? = some code ↔ ∃ r, e = .request (.refused r) ∧ r.code = code := by
  constructor
  · intro h
    cases e with
    | request error =>
      cases error with
      | refused r => exact ⟨r, rfl, Option.some.inj h⟩
      | _ => exact nomatch h
    | _ => exact nomatch h
  · rintro ⟨r, rfl, hcode⟩
    exact congrArg some hcode

/-- What a request fails with has the code of what was wrong with it. -/
theorem exists_code_mapError_iff {α : Type} {outcome : Except Api.Error α} :
    (∃ e, outcome.mapError Error.request = .error e ∧ e.code? = some code) ↔
      ∃ e, outcome = .error e ∧ e.code? = some code := by
  cases outcome <;> simp [Except.mapError, code?]

theorem isAlreadyExists_iff : e.isAlreadyExists = true ↔ e.code? = some 409 := decide_eq_true_iff

theorem isNotFound_iff : e.isNotFound = true ↔ e.code? = some 404 := decide_eq_true_iff

end Error

/-! ### Requests -/

/-- **A request fails with a code** exactly if it can be sent and an answer to it refuses with that
code. -/
theorem Task.exists_code_call_iff {α σ : Type} {read : Answer → Except Api.Error α}
    (h : Answer.IsReader read) (r : Request) (code : Nat) (meaning : Meaning σ) (state : σ) :
    (∃ e, ((Task.call r read).run.run meaning state).1 = .error e ∧ e.code? = some code) ↔
      r.check = .ok () ∧ ∃ a, (meaning (.send r none) state).1 = some a ∧ a.Refuses code := by
  cases hr : r.check with
  | error fault =>
    obtain ⟨reason, rfl⟩ := Request.exists_fault_of_check hr
    rw [(Program.Calls.call r read).run_fst_of_fault hr, Error.exists_code_mapError_iff]
    simp [Api.Error.code?]
  | ok =>
    rw [(Program.Calls.call r read).run_fst hr, Error.exists_code_mapError_iff]
    generalize (meaning (.send r none) state).1 = answered
    cases (answered : Option Answer) with
    | none => simp [understood, Api.Error.code?]
    | some a =>
      rw [understood, h.exists_code_iff]
      refine ⟨fun ha => ⟨rfl, a, rfl, ha⟩, ?_⟩
      rintro ⟨-, a', heq, ha⟩
      exact Option.some.inj heq ▸ ha

end CustomResource
