import NatBehavior.Probe.Exchange
import NatBehavior.Proofs.Stun.Fingerprint

/-! The requests of probes on the wire. Nothing bounds the text of the software, so a request can
outgrow the sixteen bits of its length fields. It is read back as it was built exactly as long as it
does not: past the limit no wrapped length makes the reader find the same request again. -/
namespace NatBehavior

/-- The request of a probe without its fingerprint. -/
def bareRequest (id : Stun.TransactionId) (change : ChangeRequest) (software : Option String) :
    Stun.Message :=
  { Stun.Message.bindingRequest id with
    attributes := change.attributes ++ software.toList.map Stun.Attribute.software }

/-- The bytes that the attributes of a request take: eight where a change is asked for, the text of
the software behind four bytes and padded to a multiple of four, and eight for the fingerprint. -/
def requestSize (change : ChangeRequest) (software : Option String) : Nat :=
  (if change = .none then 0 else 8) +
    (match software with
      | none => 0
      | some name => 4 + (name.utf8ByteSize + 3) / 4 * 4) + 8

section

variable (id : Stun.TransactionId) (change : ChangeRequest) (software : Option String)

theorem bare_bareRequest :
    (bareRequest id change software).bare = bareRequest id change software := by
  cases change <;> cases software <;> rfl

theorem carried_of_mem_bareRequest :
    ∀ item ∈ (bareRequest id change software).attributes, item.Carried := by
  cases change <;> cases software <;>
    simp [bareRequest, ChangeRequest.attributes, Stun.Attribute.Carried]

theorem length_body_bareRequest :
    (bareRequest id change software).body.length + 8 = requestSize change software := by
  rw [Stun.Message.length_body]
  cases change <;> cases software <;>
    simp [bareRequest, ChangeRequest.attributes, requestSize, Stun.Attribute.size,
      Stun.Attribute.value, Utf8.length_encode]

theorem length_body_probeRequest :
    (probeRequest id change software).body.length = requestSize change software := by
  have hbody := Stun.Message.body_addFingerprint (bareRequest id change software)
  rw [bare_bareRequest] at hbody
  rw [← length_body_bareRequest id change software, probeRequest, ← bareRequest, hbody,
    List.length_append, Stun.Message.length_encode_fingerprint]

end

/-- A probe's request asks for the change, names the software and closes with a fingerprint. It is
read back as it was built exactly as long as its attributes fit the sixteen bits of the length. -/
theorem probeRequest_read_back_iff (id : Stun.TransactionId) (change : ChangeRequest)
    (software : Option String) :
    let request := probeRequest id change software
    request.messageClass = .request ∧
    request.transaction = id ∧
    (∃ value, request.attributes =
      (match change with
        | .none => []
        | .ipAndPort => [.changeRequest true true]
        | .port => [.changeRequest false true]) ++
      (match software with
        | none => []
        | some name => [.software name]) ++ [.fingerprint value]) ∧
    (Stun.Message.decode request.encode = .ok request ↔ requestSize change software ≤ 65535) ∧
    request.encode.length = 20 + requestSize change software := by
  intro request
  have hlength := length_body_probeRequest id change software
  refine ⟨rfl, rfl, ⟨(bareRequest id change software).stamp, ?_⟩, ?_, ?_⟩
  · cases change <;> cases software <;> rfl
  · have hiff :=
      Stun.Message.decode_encode_addFingerprint_eq_ok_iff (bareRequest id change software)
    rw [bare_bareRequest] at hiff
    exact hiff.trans (hlength ▸ and_iff_left (carried_of_mem_bareRequest id change software))
  · rw [Stun.Message.encode, List.length_append, Stun.Message.length_header, hlength]

end NatBehavior
