import NatBehavior.Proofs.Network.Exchange

/-! Datagrams that were cut or run on. A message says where it ends, and its reader looks at nothing
behind that: cutting a datagram there changes nothing, and cutting it earlier leaves no message at
all. So the limited buffer of an exchange loses long messages and confuses none. -/
namespace NatBehavior

namespace Stun

section

variable {bytes : Bytes} {n : Nat} {m : Message}

/-! ### The header of a cut datagram -/

theorem getD_take {i : Nat} (h : i < n) : (bytes.take n).getD i 0 = bytes.getD i 0 := by
  rw [List.getD_eq_getElem?_getD, List.getD_eq_getElem?_getD, List.getElem?_take_of_lt h]

theorem typeWordOf_take (h : 20 ≤ n) : typeWordOf (bytes.take n) = typeWordOf bytes := by
  simp only [typeWordOf, getD_take (by omega : 0 < n), getD_take (by omega : 1 < n)]

theorem declaredLength_take (h : 20 ≤ n) : declaredLength (bytes.take n) = declaredLength bytes := by
  simp only [declaredLength, getD_take (by omega : 2 < n), getD_take (by omega : 3 < n)]

theorem cookieOf_take (h : 20 ≤ n) : cookieOf (bytes.take n) = cookieOf bytes := by
  simp only [cookieOf, getD_take (by omega : 4 < n), getD_take (by omega : 5 < n),
    getD_take (by omega : 6 < n), getD_take (by omega : 7 < n)]

theorem transactionOf_take (h : 20 ≤ n) : transactionOf (bytes.take n) = transactionOf bytes := by
  rw [transactionOf, List.drop_take, List.take_take, Nat.min_eq_left (by omega), transactionOf]

theorem bodyOf_take (h : 20 + declaredLength bytes ≤ n) : bodyOf (bytes.take n) = bodyOf bytes := by
  rw [bodyOf, declaredLength_take (by omega), List.drop_take, List.take_take,
    Nat.min_eq_left (by omega), bodyOf]

/-! ### What a cut leaves of a message -/

namespace Message

/-- Nothing behind the declared body is read, be it read well or badly. -/
theorem decode_take (h : 20 + declaredLength bytes ≤ n) :
    decode (bytes.take n) = decode bytes := by
  by_cases hlength : 20 ≤ bytes.length
  · have htake : 20 ≤ (bytes.take n).length := by
      rw [List.length_take]
      omega
    have hn : 20 ≤ n := by omega
    rw [decode_of_le_length htake, decode_of_le_length hlength, typeWordOf_take hn,
      declaredLength_take hn, cookieOf_take hn, transactionOf_take hn, bodyOf_take h,
      List.take_take, Nat.min_eq_left hn]
  · rw [List.take_of_length_le (by omega)]

theorem decode_take_of_lt (hread : decode bytes = .ok m) (h : n < 20 + declaredLength bytes) :
    decode (bytes.take n) = .error .messageTooShort := by
  have hcut : (bytes.take n).length < 20 + declaredLength bytes := by
    rw [List.length_take]
    omega
  by_cases hheader : (bytes.take n).length < 20
  · exact decode_of_length_lt hheader
  · have hn : 20 ≤ n := by
      rw [List.length_take] at hheader
      omega
    rw [decode_eq, if_neg hheader, if_neg, declaredLength_take hn, if_pos hcut]
    rw [cookieOf_take hn]
    exact not_not.mpr (spells_of_decode hread).cookie

/-- A message that is read in front of a cut is read without the cut. -/
theorem decode_of_decode_take (h : decode (bytes.take n) = .ok m) : decode bytes = .ok m := by
  have hframed := (spells_of_decode h).framed
  rw [List.length_take] at hframed
  have hn : 20 ≤ n := by omega
  rw [declaredLength_take hn] at hframed
  rw [← decode_take (by omega : 20 + declaredLength bytes ≤ n), h]

theorem decode_take_of_decode (hread : decode bytes = .ok m) :
    decode (bytes.take n) =
      if 20 + declaredLength bytes ≤ n then .ok m else .error .messageTooShort := by
  split
  · rename_i h
    rw [decode_take h, hread]
  · rename_i h
    exact decode_take_of_lt hread (Nat.lt_of_not_le h)

theorem decode_take_eq_ok_iff :
    decode (bytes.take n) = .ok m ↔ decode bytes = .ok m ∧ 20 + declaredLength bytes ≤ n := by
  constructor
  · intro h
    have hread := decode_of_decode_take h
    refine ⟨hread, Nat.le_of_not_lt fun hcut => ?_⟩
    cases h.symm.trans (decode_take_of_lt hread hcut)
  · rintro ⟨hread, h⟩
    rw [decode_take h, hread]

end Message

end

end Stun

/-! ### The buffer of an exchange -/

/-- A datagram from a source that is a message of a transaction as it was sent. -/
structure Arrival.Holds (a : Arrival) (id : Stun.TransactionId) (m : Stun.Message)
    (source : Endpoint) : Prop where
  received : ∃ payload, a.event = .ok ⟨payload, source⟩ ∧ Stun.Message.decode payload = .ok m
  transaction : m.transaction = id

/-- Whatever is no datagram with a message that ends behind what is looked at of it. -/
def Arrival.fits (a : Arrival) : Bool :=
  match a.event with
  | .ok datagram => 20 + Stun.declaredLength datagram.payload ≤ 1024
  | .error _ => true

theorem replyTo?_eq_some_iff_whole {id : Stun.TransactionId} {payload : Bytes}
    {m : Stun.Message} :
    replyTo? id payload = some m ↔
      Stun.Message.decode payload = .ok m ∧ m.transaction = id ∧
        20 + Stun.declaredLength payload ≤ 1024 := by
  rw [replyTo?_eq_some_iff, Stun.Message.decode_take_eq_ok_iff, and_assoc, and_comm (b := _ = id)]

namespace Arrival

variable {a : Arrival} {id : Stun.TransactionId}

theorem Bears.holds {m : Stun.Message} {source : Endpoint} (h : a.Bears id m source) :
    a.Holds id m source := by
  obtain ⟨payload, hevent, hdecoded⟩ := h.received
  exact ⟨⟨payload, hevent, Stun.Message.decode_of_decode_take hdecoded⟩, h.transaction⟩

theorem fits_of_ending?_isSome (h : (a.ending? id).isSome) : a.fits = true := by
  unfold fits
  cases hevent : a.event with
  | error e => rfl
  | ok datagram =>
    rw [ending?_of_ok hevent, Option.isSome_map, Option.isSome_iff_exists] at h
    obtain ⟨m, hreply⟩ := h
    exact decide_eq_true (replyTo?_eq_some_iff_whole.mp hreply).2.2

end Arrival

theorem endings_filter_fits (id : Stun.TransactionId) (schedule : List Arrival) :
    endings id (schedule.filter Arrival.fits) = endings id schedule := by
  rw [endings, endings, List.filter_filter]
  refine List.filter_congr fun a _ => ?_
  cases hending : (a.ending? id).isSome with
  | false => rfl
  | true => exact Arrival.fits_of_ending?_isSome hending

namespace Site

/-- An exchange is answered by a datagram that was on its way. -/
theorem Exchanged.exists_holds {site : Site} {id : Stun.TransactionId} {request : Bytes}
    {dest source : Endpoint} {waits : List Duration} {w w' : World} {m : Stun.Message}
    {result : Except Halt (Except IoError (Option (Stun.Message × Endpoint)))}
    (h : Exchanged site id request dest waits w result w')
    (hresult : result = .ok (.ok (some (m, source)))) :
    ∃ a ∈ w.inbox, a.Holds id m source := by
  cases h with
  | refused | stopped | silent => cases hresult
  | @ended before after a ending j _ _ _ _ hinbox _ ha =>
    cases ending with
    | error e => cases hresult
    | ok reply =>
      obtain rfl : reply = (m, source) := by
        cases hresult
        rfl
      exact ⟨a, by simp [hinbox], (Arrival.ending?_eq_ok_iff.mp ha).holds⟩

/-- Neither a cut nor bytes behind it change a message. An exchange answers only with a message that
some datagram of the schedule is as a whole, and ends as if those too long for its buffer had never
been sent. -/
theorem exchange_reads_whole_datagrams :
    (∀ (bytes : Bytes) (n : Nat) (m : Stun.Message),
      Stun.Message.decode (bytes.take n) = .ok m → Stun.Message.decode bytes = .ok m) ∧
    (∀ (bytes : Bytes) (n : Nat) (m : Stun.Message), Stun.Message.decode bytes = .ok m →
      Stun.Message.decode (bytes.take n) =
        if 20 + Stun.declaredLength bytes ≤ n then .ok m else .error .messageTooShort) ∧
    (∀ (id : Stun.TransactionId) (payload : Bytes) (m : Stun.Message),
      replyTo? id payload = some m ↔
        Stun.Message.decode payload = .ok m ∧ m.transaction = id ∧
          20 + Stun.declaredLength payload ≤ 1024) ∧
    ∀ (site : Site) (r : Retransmission) (message : Stun.Message) (dest : Endpoint)
      (schedule : List Arrival), InOrder schedule →
      let ended (schedule : List Arrival) :=
        ((site.socket.exchange r message dest).run.run).run
          { World.start [] with inbox := schedule }
      (∀ m source, (ended schedule).1 = .ok (.ok (some (m, source))) →
        ∃ a ∈ schedule, a.Holds message.transaction m source) ∧
      (ended (schedule.filter Arrival.fits)).1 = (ended schedule).1 ∧
      (ended (schedule.filter Arrival.fits)).2.now = (ended schedule).2.now ∧
      (ended (schedule.filter Arrival.fits)).2.sent = (ended schedule).2.sent := by
  refine ⟨fun _ _ _ => Stun.Message.decode_of_decode_take,
    fun _ _ _ => Stun.Message.decode_take_of_decode, fun _ _ _ => replyTo?_eq_some_iff_whole, ?_⟩
  intro site r message dest schedule horder ended
  have hended : ∀ schedule, ended schedule =
      site.exchanged message.transaction message.encode dest r.waits
        { World.start [] with inbox := schedule } :=
    fun schedule => run_exchange site r message dest _
  rw [hended, hended]
  constructor
  · intro m source hreply
    exact (exchanged_cases rfl horder).exists_holds hreply
  · exact exchanged_of_endings_eq (w := { World.start [] with inbox := schedule }) rfl horder
      (horder.sublist List.filter_sublist) (endings_filter_fits _ _)

/-- A response with bytes behind it answers. One that arrives before it is four bytes too long. -/
theorem exchange_reads_whole_datagrams_cut :
    let response : Stun.Message := ⟨.success, .zero, [.changeRequest true false]⟩
    let payload := response.encode ++ [1, 2, 3]
    let long : Stun.Message := ⟨.success, .zero, [.unknown 0x7FFF (List.replicate 1001 0)]⟩
    let server : Endpoint := .v4 ⟨127, 0, 0, 1⟩ 3478
    let site : Site := ⟨.loopback, .v4 ⟨127, 0, 0, 1⟩ 40000, [], fun _ => .zero,
      9223372036854775807000000000, fun _ _ => none⟩
    let schedule : List Arrival := [⟨3, .ok ⟨long.encode, server⟩⟩, ⟨5, .ok ⟨payload, server⟩⟩]
    let ended (schedule : List Arrival) :=
      ((site.socket.exchange .standard (.bindingRequest .zero) server).run.run).run
        { World.start [] with inbox := schedule }
    Stun.Message.decode (payload.take 28) = .ok response ∧
    Stun.Message.decode payload = .ok response ∧
    Stun.Message.decode (payload.take 27) = .error .messageTooShort ∧
    InOrder schedule ∧
    (ended schedule).1 = .ok (.ok (some (response, server))) ∧
    ∃ a ∈ schedule, a.Holds .zero response server := by
  intro response payload long server site schedule ended
  have hcut : Stun.Message.decode (payload.take 28) = .ok response := by decide +kernel
  have horder : InOrder schedule := by decide
  have hanswer : (ended schedule).1 = .ok (.ok (some (response, server))) := by
    have hended : ended schedule = _ := run_exchange site .standard (.bindingRequest .zero) server _
    rw [hended]
    decide +kernel
  obtain ⟨hfront, htake, -, hexchange⟩ := exchange_reads_whole_datagrams
  have hread := hfront payload 28 response hcut
  have hshort := (htake payload 27 response hread).trans (if_neg (by decide))
  obtain ⟨hwhole, -⟩ := hexchange site .standard (.bindingRequest .zero) server schedule horder
  exact ⟨hcut, hread, hshort, horder, hanswer, hwhole response server hanswer⟩

end Site

end NatBehavior
