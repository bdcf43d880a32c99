import NatBehavior.Probe.Response
import NatBehavior.Proofs.Host

/-! What of a message reaches the classifier. A response is told by the first attributes of four
kinds and by two addresses of the datagram, all of them read as hosts. Whatever else a message
holds, in whatever order, changes nothing. -/
namespace NatBehavior

namespace Stun.Message

variable {kind other : Endpoint → Attribute} {pick : Attribute → Option Endpoint}
  {read readOther : Message → Option Endpoint} {m m' : Message} {e : Endpoint}

/-! ### The first attribute of a kind -/

/-- The first attribute of a kind holds an address. -/
def First (kind : Endpoint → Attribute) (m : Message) (e : Endpoint) : Prop :=
  ∃ front back, m.attributes = front ++ kind e :: back ∧ ∀ x, kind x ∉ front

/-- No attribute is of a kind. -/
def Lacks (kind : Endpoint → Attribute) (m : Message) : Prop := ∀ x, kind x ∉ m.attributes

/-- Both messages have a first attribute of a kind, with addresses of one host, or neither has
any. -/
inductive FirstsAgree (kind : Endpoint → Attribute) (m m' : Message) : Prop
  | both {e e' : Endpoint} (h : m.First kind e) (h' : m'.First kind e') (halike : e.Alike e')
  | neither (h : m.Lacks kind) (h' : m'.Lacks kind)

theorem First.mem (h : m.First kind e) : kind e ∈ m.attributes := by
  obtain ⟨front, back, hsplit, -⟩ := h
  simp [hsplit]

/-- A reader of messages that finds the first attribute of a kind. -/
structure Reads (kind : Endpoint → Attribute) (read : Message → Option Endpoint) : Prop where
  eq_some_iff : ∀ {m e}, read m = some e ↔ m.First kind e
  eq_none_iff : ∀ {m}, read m = none ↔ m.Lacks kind

theorem reads_findSome? (hpick : ∀ item x, pick item = some x ↔ item = kind x) :
    Reads kind fun m => m.attributes.findSome? pick := by
  have hnone : ∀ items : List Attribute,
      (∀ item ∈ items, pick item = none) ↔ ∀ x, kind x ∉ items := by
    intro items
    constructor
    · intro h x hmem
      cases ((hpick _ x).mpr rfl).symm.trans (h _ hmem)
    · intro h item hmem
      refine Option.eq_none_iff_forall_ne_some.mpr fun x hx => h x ?_
      exact (hpick item x).mp hx ▸ hmem
  constructor
  · intro m e
    rw [List.findSome?_eq_some_iff]
    constructor
    · rintro ⟨front, item, back, hsplit, hitem, hfront⟩
      obtain rfl := (hpick item e).mp hitem
      exact ⟨front, back, hsplit, (hnone front).mp hfront⟩
    · rintro ⟨front, back, hsplit, hfront⟩
      exact ⟨front, kind e, back, hsplit, (hpick _ e).mpr rfl, (hnone front).mpr hfront⟩
  · intro m
    rw [List.findSome?_eq_none_iff]
    exact hnone m.attributes

theorem reads_xorMappedAddress : Reads .xorMappedAddress xorMappedAddress :=
  reads_findSome? fun item x => by cases item <;> simp

theorem reads_plainMappedAddress : Reads .mappedAddress plainMappedAddress :=
  reads_findSome? fun item x => by cases item <;> simp

theorem reads_changedAddress : Reads .changedAddress changedAddress :=
  reads_findSome? fun item x => by cases item <;> simp

theorem reads_otherAddress : Reads .otherAddress otherAddress :=
  reads_findSome? fun item x => by cases item <;> simp

/-- A reader finds the same host in messages whose firsts agree. -/
theorem Reads.map_ofEndpoint_eq (h : Reads kind read) (hagree : FirstsAgree kind m m') :
    (read m).map Host.ofEndpoint = (read m').map Host.ofEndpoint := by
  cases hagree with
  | both hfirst hfirst' halike =>
    rw [h.eq_some_iff.mpr hfirst, h.eq_some_iff.mpr hfirst']
    exact congrArg some (Host.ofEndpoint_eq_iff.mpr halike)
  | neither hlacks hlacks' => rw [h.eq_none_iff.mpr hlacks, h.eq_none_iff.mpr hlacks']

/-! ### One kind before another -/

/-- The first attribute of a kind holds an address, or there is none and the first of another kind
does. -/
def FirstOr (kind other : Endpoint → Attribute) (m : Message) (e : Endpoint) : Prop :=
  m.First kind e ∨ m.Lacks kind ∧ m.First other e

theorem Reads.orElse_eq_some_iff (h : Reads kind read) (hother : Reads other readOther) :
    (read m <|> readOther m) = some e ↔ m.FirstOr kind other e := by
  cases hread : read m with
  | some first =>
    have hfirst := h.eq_some_iff.mp hread
    constructor
    · intro hsame
      obtain rfl := Option.some.inj hsame
      exact .inl hfirst
    · rintro (hsame | ⟨hlacks, -⟩)
      · exact hread.symm.trans (h.eq_some_iff.mpr hsame)
      · exact absurd hfirst.mem (hlacks first)
  | none =>
    have hlacks := h.eq_none_iff.mp hread
    change readOther m = some e ↔ _
    rw [hother.eq_some_iff]
    constructor
    · exact fun hfirst => .inr ⟨hlacks, hfirst⟩
    · rintro (hfirst | ⟨-, hfirst⟩)
      · exact absurd hfirst.mem (hlacks e)
      · exact hfirst

theorem mappedAddress_eq_some_iff :
    m.mappedAddress = some e ↔ m.FirstOr .xorMappedAddress .mappedAddress e :=
  reads_xorMappedAddress.orElse_eq_some_iff reads_plainMappedAddress

theorem mappedAddress_of_lacks (h : m.Lacks .xorMappedAddress) :
    m.mappedAddress = m.plainMappedAddress := by
  rw [mappedAddress, reads_xorMappedAddress.eq_none_iff.mpr h]
  rfl

theorem isSome_mappedAddress_iff :
    m.mappedAddress.isSome ↔
      ∃ e, .xorMappedAddress e ∈ m.attributes ∨ .mappedAddress e ∈ m.attributes := by
  constructor
  · intro h
    obtain ⟨e, he⟩ := Option.isSome_iff_exists.mp h
    rcases mappedAddress_eq_some_iff.mp he with hfirst | ⟨-, hfirst⟩
    · exact ⟨e, .inl hfirst.mem⟩
    · exact ⟨e, .inr hfirst.mem⟩
  · rintro ⟨e, hmem⟩
    cases hmasked : m.xorMappedAddress with
    | some masked =>
      rw [mappedAddress, hmasked]
      rfl
    | none =>
      have hlacks := reads_xorMappedAddress.eq_none_iff.mp hmasked
      rw [mappedAddress_of_lacks hlacks, Option.isSome_iff_ne_none, ne_eq,
        reads_plainMappedAddress.eq_none_iff]
      exact fun hplain => hmem.elim (hlacks e) (hplain e)

/-- Two messages that tell the same apart from the form of addresses. -/
structure Agrees (m m' : Message) : Prop where
  masked : FirstsAgree .xorMappedAddress m m'
  plain : m.Lacks .xorMappedAddress → FirstsAgree .mappedAddress m m'
  changed : FirstsAgree .changedAddress m m'
  other : FirstsAgree .otherAddress m m'

theorem Agrees.map_mappedAddress (h : m.Agrees m') :
    m.mappedAddress.map Host.ofEndpoint = m'.mappedAddress.map Host.ofEndpoint := by
  cases h.masked with
  | both hfirst hfirst' halike =>
    rw [mappedAddress_eq_some_iff.mpr (.inl hfirst), mappedAddress_eq_some_iff.mpr (.inl hfirst')]
    exact congrArg some (Host.ofEndpoint_eq_iff.mpr halike)
  | neither hlacks hlacks' =>
    rw [mappedAddress_of_lacks hlacks, mappedAddress_of_lacks hlacks']
    exact reads_plainMappedAddress.map_ofEndpoint_eq (h.plain hlacks)

end Stun.Message

namespace Response

open Stun (Message)

variable {m m' : Message} {source own : Endpoint} {r : Response}

/-- What a success response tells, in terms of hosts. -/
theorem ofMessage_of_success (h : m.messageClass = .success) (source own : Endpoint) :
    ofMessage m source own =
      match m.mappedAddress.map Host.ofEndpoint with
      | none => .error (.stun .missingAttribute)
      | some mapped =>
        .ok ⟨mapped, .ofEndpoint source, m.changedAddress.map .ofEndpoint,
          m.otherAddress.map .ofEndpoint, mapped = .ofEndpoint own⟩ := by
  unfold ofMessage
  rw [h]
  cases m.mappedAddress <;> rfl

theorem messageClass_of_ofMessage (h : ofMessage m source own = .ok r) :
    m.messageClass = .success := by
  unfold ofMessage at h
  split at h
  · assumption
  · split at h <;> cases h
  · cases h

/-- The fields of a response in terms of the message, the datagram's source and the client's own
address. -/
structure Told (m : Message) (source own : Endpoint) (r : Response) : Prop where
  mapped : ∃ e, m.FirstOr .xorMappedAddress .mappedAddress e ∧ r.mapped = .ofEndpoint e ∧
    (r.identical = true ↔ e.Alike own)
  server : r.server = .ofEndpoint source
  changed : ∀ host, r.changed = some host ↔
    ∃ e, m.First .changedAddress e ∧ .ofEndpoint e = host
  other : ∀ host, r.other = some host ↔ ∃ e, m.First .otherAddress e ∧ .ofEndpoint e = host
  alternate : ∀ host, r.alternate = some host ↔
    ∃ e, m.FirstOr .changedAddress .otherAddress e ∧ .ofEndpoint e = host

theorem told_of_ofMessage (h : ofMessage m source own = .ok r) : Told m source own r := by
  rw [ofMessage_of_success (messageClass_of_ofMessage h)] at h
  cases hmapped : m.mappedAddress with
  | none =>
    rw [hmapped] at h
    cases h
  | some e =>
    rw [hmapped] at h
    obtain rfl := Except.ok.inj h
    refine ⟨⟨e, Message.mappedAddress_eq_some_iff.mp hmapped, rfl, ?_⟩, rfl, ?_, ?_, ?_⟩
    · exact decide_eq_true_iff.trans Host.ofEndpoint_eq_iff
    · simp only [Option.map_eq_some_iff, Message.reads_changedAddress.eq_some_iff, implies_true]
    · simp only [Option.map_eq_some_iff, Message.reads_otherAddress.eq_some_iff, implies_true]
    · intro host
      have halternate : (m.changedAddress.map Host.ofEndpoint <|>
          m.otherAddress.map Host.ofEndpoint) =
            (m.changedAddress <|> m.otherAddress).map Host.ofEndpoint := by
        cases m.changedAddress <;> rfl
      rw [alternate, halternate, Option.map_eq_some_iff]
      simp only [Message.reads_changedAddress.orElse_eq_some_iff Message.reads_otherAddress]

/-- A message yields a response exactly where it is a success and has a mapped address. The response
is told by the first attributes of four kinds, the source and the client's own address, up to the
form of addresses, and by nothing else. -/
theorem ofMessage_depends_on_firsts (m : Message) (source own : Endpoint) :
    ((∃ r, ofMessage m source own = .ok r) ↔
      m.messageClass = .success ∧
        ∃ e, .xorMappedAddress e ∈ m.attributes ∨ .mappedAddress e ∈ m.attributes) ∧
    (∀ r, ofMessage m source own = .ok r → Told m source own r) ∧
    ∀ (m' : Message) (source' own' : Endpoint),
      m.messageClass = .success → m'.messageClass = .success → m.Agrees m' →
      source.Alike source' → own.Alike own' →
        ofMessage m source own = ofMessage m' source' own' := by
  refine ⟨?_, fun _ => told_of_ofMessage, ?_⟩
  · rw [← Message.isSome_mappedAddress_iff]
    constructor
    · rintro ⟨r, h⟩
      obtain ⟨e, hmaps, -⟩ := (told_of_ofMessage h).mapped
      exact ⟨messageClass_of_ofMessage h, Message.mappedAddress_eq_some_iff.mpr hmaps ▸ rfl⟩
    · rintro ⟨hsuccess, hmapped⟩
      obtain ⟨e, he⟩ := Option.isSome_iff_exists.mp hmapped
      rw [ofMessage_of_success hsuccess, he]
      exact ⟨_, rfl⟩
  · intro m' source' own' hsuccess hsuccess' hagree hsource hown
    rw [ofMessage_of_success hsuccess, ofMessage_of_success hsuccess', hagree.map_mappedAddress,
      Message.reads_changedAddress.map_ofEndpoint_eq hagree.changed,
      Message.reads_otherAddress.map_ofEndpoint_eq hagree.other,
      Host.ofEndpoint_eq_iff.mpr hsource, Host.ofEndpoint_eq_iff.mpr hown]

/-- A dual-stack socket that gets the same news in another order, with a second masked address and
without the plain one. -/
theorem ofMessage_depends_on_firsts_dual_stack :
    let here : Endpoint := .v4 ⟨203, 0, 113, 7⟩ 50000
    let here' : Endpoint := .v6 (.ofIpv4 ⟨203, 0, 113, 7⟩) 50000 0 2
    let source : Endpoint := .v4 ⟨198, 51, 100, 1⟩ 3478
    let source' : Endpoint := .v6 (.ofIpv4 ⟨198, 51, 100, 1⟩) 3478 0 0
    let other : Endpoint := .v4 ⟨198, 51, 100, 2⟩ 3479
    let other' : Endpoint := .v6 (.ofIpv4 ⟨198, 51, 100, 2⟩) 3479 0 0
    let m : Message := ⟨.success, .zero, [.software "a", .mappedAddress source,
      .xorMappedAddress here, .otherAddress other, .fingerprint 7]⟩
    let m' : Message := ⟨.success, .zero, [.otherAddress other', .changeRequest true false,
      .xorMappedAddress here', .xorMappedAddress source, .unknown 0x7FFF []]⟩
    let r : Response :=
      ⟨.ofEndpoint here, .ofEndpoint source, none, some (.ofEndpoint other), true⟩
    m.Agrees m' ∧ source.Alike source' ∧ here.Alike here' ∧
    ofMessage m source here = .ok r ∧ Told m source here r ∧ ofMessage m' source' here' = .ok r := by
  intro here here' source source' other other' m m' r
  have hhere : here.Alike here' := ⟨.mapped _, rfl⟩
  have hsource : source.Alike source' := ⟨.mapped _, rfl⟩
  have hmasked : m.First .xorMappedAddress here := ⟨[_, _], _, rfl, by simp⟩
  have hagree : m.Agrees m' :=
    { masked := .both hmasked ⟨[_, _], _, rfl, by simp⟩ hhere
      plain := fun hlacks => absurd hmasked.mem (hlacks here)
      changed := .neither (by simp [Message.Lacks, m]) (by simp [Message.Lacks, m'])
      other := .both ⟨[_, _, _], _, rfl, by simp⟩ ⟨[], _, rfl, by simp⟩ ⟨.mapped _, rfl⟩ }
  have hok : ofMessage m source here = .ok r := rfl
  obtain ⟨-, htold, hdepends⟩ := ofMessage_depends_on_firsts m source here
  have hsame := hdepends m' source' here' rfl rfl hagree hsource hhere
  exact ⟨hagree, hsource, hhere, hok, htold r hok, hsame.symm.trans hok⟩

end Response

end NatBehavior
