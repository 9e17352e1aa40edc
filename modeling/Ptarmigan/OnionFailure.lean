/-
A failure on its way back to the payer: the hop that fails makes the packet, each hop
before it wraps it once more, and the payer unwraps layer by layer until one looks like
a failure message.
-/
import Ptarmigan.Onion

namespace Ptarmigan

open KeyStream

variable {crypto : OnionCrypto}

/-- What the given hops make of a packet that the last of them gets from behind. -/
def wrapFailure (crypto : OnionCrypto) (secrets : List Bytes) (packet : Bytes) : Bytes :=
  secrets.foldr (lnOnionFailureForward crypto) packet

/-- What a packet is after the layers of the given hops have been taken off. -/
def unwrapFailure (crypto : OnionCrypto) (secrets : List Bytes) (packet : Bytes) : Bytes :=
  secrets.foldl (fun packet secret => lnOnionFailureForward crypto secret packet) packet

/-- The packet that hop `earlier` gets from behind when `hop` fails. -/
def failurePacketAt (crypto : OnionCrypto) (secrets : List Bytes) (hop : Nat) (reason : Bytes)
    (earlier : Nat) : Option Bytes :=
  (secrets[hop]?.bind fun secret => lnOnionFailureCreate crypto secret reason).map
    (wrapFailure crypto ((secrets.take hop).drop (earlier + 1)))

/-- The packet that reaches the payer when `hop` fails. -/
def failurePacket (crypto : OnionCrypto) (secrets : List Bytes) (hop : Nat) (reason : Bytes) :
    Option Bytes :=
  (secrets[hop]?.bind fun secret => lnOnionFailureCreate crypto secret reason).map
    (wrapFailure crypto (secrets.take hop))

/-- The payer reads the reason and the hop. -/
def FailureArrives (crypto : OnionCrypto) (secrets : List Bytes) (hop : Nat) (reason : Bytes) :
    Prop :=
  ∃ packet, failurePacket crypto secrets hop reason = some packet ∧
    lnOnionFailureRead crypto secrets packet = some (some (reason, hop))

/-- No hop before the failing one gets a packet that looks like a failure message. -/
def LayersHidden (crypto : OnionCrypto) (secrets : List Bytes) (hop : Nat) (reason : Bytes) :
    Prop :=
  ∀ earlier < hop, ∀ packet, failurePacketAt crypto secrets hop reason earlier = some packet →
    failureReason packet = some none

/-- A reason is only read for a hop whose HMAC matches. -/
def OnlyAuthentic (crypto : OnionCrypto) : Prop :=
  ∀ (secrets : List Bytes) (packet reason : Bytes) (hop : Nat),
    lnOnionFailureRead crypto secrets packet = some (some (reason, hop)) →
      ∃ secret, secrets[hop]? = some secret ∧
        failureHmacMatches crypto secret
          (unwrapFailure crypto (secrets.take (hop + 1)) packet) = true ∧
        failureReason (unwrapFailure crypto (secrets.take (hop + 1)) packet) =
          some (some reason)

/-! ### Layers -/

@[simp] theorem length_lnOnionFailureForward (secret packet : Bytes) :
    (lnOnionFailureForward crypto secret packet).length = packet.length := by
  simp [lnOnionFailureForward]

theorem lnOnionFailureForward_cancel (secret packet : Bytes) :
    lnOnionFailureForward crypto secret (lnOnionFailureForward crypto secret packet) =
      packet := by
  have hlength := @length_lnOnionFailureForward crypto secret packet
  rw [lnOnionFailureForward, hlength, lnOnionFailureForward]
  exact xorBytes_cancel (by simp)

theorem failureReadLoop_cons_wrapped (secret packet : Bytes) (secrets : List Bytes) (hop : Nat) :
    failureReadLoop crypto (secret :: secrets) hop (lnOnionFailureForward crypto secret packet) =
      (failureReason packet).bind fun reason =>
        match reason with
        | some reason =>
            some (if failureHmacMatches crypto secret packet then some (reason, hop) else none)
        | none => failureReadLoop crypto secrets (hop + 1) packet := by
  have hcancel : lnOnionFailureForward crypto secret
      (lnOnionFailureForward crypto secret packet) = packet := lnOnionFailureForward_cancel _ _
  conv_rhs => rw [← hcancel]
  rfl

/-- What the loop reads comes from a layer it takes off. -/
theorem failureReadLoop_layer {secrets : List Bytes} {start hop : Nat} {packet reason : Bytes}
    (hread : failureReadLoop crypto secrets start packet = some (some (reason, hop))) :
    ∃ layer secret, hop = start + layer ∧ secrets[layer]? = some secret ∧
      failureHmacMatches crypto secret
        (unwrapFailure crypto (secrets.take (layer + 1)) packet) = true ∧
      failureReason (unwrapFailure crypto (secrets.take (layer + 1)) packet) =
        some (some reason) := by
  induction secrets generalizing start packet with
  | nil => cases hread
  | cons secret secrets ih =>
      obtain ⟨found, hfound, hrest⟩ := Option.bind_eq_some_iff.mp hread
      cases found with
      | none =>
          obtain ⟨layer, other, rfl, hother, hmac, hreason⟩ := ih hrest
          exact ⟨layer + 1, other, by omega, hother, hmac, hreason⟩
      | some found =>
          by_cases hmac : failureHmacMatches crypto secret
              (lnOnionFailureForward crypto secret packet) = true
          · simp only [hmac, if_true, Option.some.injEq, Prod.mk.injEq] at hrest
            obtain ⟨rfl, rfl⟩ := hrest
            exact ⟨0, secret, rfl, rfl, hmac, hfound⟩
          · simp [hmac] at hrest

theorem onlyAuthentic (crypto : OnionCrypto) : OnlyAuthentic crypto := by
  intro secrets packet reason hop hread
  obtain ⟨layer, secret, hhop, hsecret, hmac, hreason⟩ := failureReadLoop_layer hread
  rw [Nat.zero_add] at hhop
  subst hhop
  exact ⟨secret, hsecret, hmac, hreason⟩

/-- The loop comes to the packet inside some layers exactly when it takes none of them
for a failure message. -/
theorem failureReadLoop_wrapped {wrapping rest : List Bytes} {start : Nat} {packet reason : Bytes} :
    failureReadLoop crypto (wrapping ++ rest) start (wrapFailure crypto wrapping packet) =
        some (some (reason, start + wrapping.length)) ↔
      (∀ layer < wrapping.length,
        failureReason (wrapFailure crypto (wrapping.drop (layer + 1)) packet) = some none) ∧
      failureReadLoop crypto rest (start + wrapping.length) packet =
        some (some (reason, start + wrapping.length)) := by
  induction wrapping generalizing start with
  | nil => simp [wrapFailure]
  | cons secret wrapping ih =>
      have hlayers : (∀ layer < (secret :: wrapping).length, failureReason
            (wrapFailure crypto ((secret :: wrapping).drop (layer + 1)) packet) = some none) ↔
          failureReason (wrapFailure crypto wrapping packet) = some none ∧
            ∀ layer < wrapping.length,
              failureReason (wrapFailure crypto (wrapping.drop (layer + 1)) packet) =
                some none := by
        constructor
        · intro hall
          exact ⟨hall 0 (Nat.succ_pos _), fun layer hlt => hall (layer + 1) (Nat.succ_lt_succ hlt)⟩
        · rintro ⟨hfirst, hall⟩ layer hlt
          cases layer with
          | zero => exact hfirst
          | succ layer => exact hall layer (Nat.lt_of_succ_lt_succ hlt)
      have hlength : start + (secret :: wrapping).length = start + 1 + wrapping.length := by
        rw [List.length_cons]
        omega
      rw [hlayers, hlength, and_assoc, ← ih, List.cons_append, wrapFailure, List.foldr_cons,
        failureReadLoop_cons_wrapped, ← wrapFailure]
      cases hreason : failureReason (wrapFailure crypto wrapping packet) with
      | none => simp
      | some found =>
          cases found with
          | none => simp
          | some found =>
              -- the loop ends here, whatever the HMAC says
              simp only [Option.bind_some, Option.some.injEq, reduceCtorEq, false_and, iff_false]
              split
              · intro hpair
                have hhop := congrArg (Option.map Prod.snd) hpair
                simp only [Option.map_some, Option.some.injEq] at hhop
                omega
              · simp

/-! ### The failing hop -/

section Body

variable {reason mac : Bytes}

theorem length_failureBody (hfits : reason.length ≤ failureDatalen) :
    (failureBody reason).length = 4 + failureDatalen := by
  simp only [failureBody, List.length_append, BigEndian.length_encode, List.length_replicate]
  omega

theorem get16be_append {before after : Bytes} {value : Nat} (hfits : value < 65536) :
    get16be (before ++ (BigEndian.encode 2 value ++ after)) before.length = some value := by
  have hroom : before.length + 2 ≤ (before ++ (BigEndian.encode 2 value ++ after)).length := by
    simp
  have htake : (BigEndian.encode 2 value ++ after).take 2 = BigEndian.encode 2 value :=
    List.take_left' (BigEndian.length_encode 2 value)
  rw [get16be, if_pos hroom, List.drop_left, htake, BigEndian.decode_encode hfits]

/-- A failure message is taken for one, unless its reason leaves no padding. -/
theorem failureReason_message (hmac : mac.length = szHmac)
    (hfits : reason.length ≤ failureDatalen) :
    failureReason (mac ++ failureBody reason) =
      if reason.length < failureDatalen then some (some reason) else some none := by
  have hlen : get16be (mac ++ failureBody reason) szHmac = some reason.length := by
    rw [← hmac, failureBody, List.append_assoc, List.append_assoc]
    exact get16be_append (by rw [failureDatalen] at hfits; omega)
  rw [failureReason, hlen, Option.bind_some]
  by_cases hlt : reason.length < failureDatalen
  · have hpad : get16be (mac ++ failureBody reason) (szHmac + 2 + reason.length) =
        some (failureDatalen - reason.length) := by
      have hbefore : szHmac + 2 + reason.length =
          (mac ++ (BigEndian.encode 2 reason.length ++ reason)).length := by
        simp [hmac, Nat.add_assoc]
      rw [failureBody, List.append_assoc _ _ (List.replicate _ _), ← List.append_assoc, hbefore]
      exact get16be_append (by rw [failureDatalen]; omega)
    have hzeros : (mac ++ failureBody reason).drop (szHmac + 4 + reason.length) =
        List.replicate (failureDatalen - reason.length) 0 := by
      rw [failureBody, ← List.append_assoc]
      refine List.drop_left' ?_
      simp only [List.length_append, BigEndian.length_encode, hmac]
      omega
    have hreason : ((mac ++ failureBody reason).drop (szHmac + 2)).take reason.length = reason := by
      rw [failureBody, List.append_assoc, List.append_assoc, ← List.append_assoc mac,
        List.drop_left' (by simp [hmac]), List.take_left' rfl]
    have hlength : ¬ (mac ++ failureBody reason).length < szHmac + 4 + failureDatalen := by
      rw [List.length_append, hmac, length_failureBody hfits]
      omega
    rw [if_pos hlt, if_pos hlt, hpad, Option.bind_some, if_pos (by omega), hzeros,
      if_pos (by simp), if_neg hlength, hreason]
  · rw [if_neg hlt, if_neg hlt]

theorem failureHmacMatches_message (secret : Bytes) :
    failureHmacMatches crypto secret
      (crypto.calcMac (crypto.generateKey um secret) (failureBody reason) ++ failureBody reason) =
        true := by
  have hmac : (crypto.calcMac (crypto.generateKey um secret) (failureBody reason)).length =
      szHmac := crypto.length_calcMac _ _
  rw [failureHmacMatches, List.take_left' hmac, List.drop_left' hmac, beq_self_eq_true]

end Body

/-- At its own layer a failure is read exactly when there is padding. -/
theorem failureReadLoop_made {secret reason packet : Bytes} {rest : List Bytes} {hop : Nat}
    (hmade : lnOnionFailureCreate crypto secret reason = some packet) :
    failureReadLoop crypto (secret :: rest) hop packet = some (some (reason, hop)) ↔
      reason.length < failureDatalen := by
  rw [lnOnionFailureCreate] at hmade
  split at hmade
  · cases hmade
  · rename_i hfits
    obtain rfl := Option.some.inj hmade
    rw [failureReadLoop_cons_wrapped, failureReason_message (crypto.length_calcMac _ _)
      (Nat.le_of_not_lt hfits)]
    by_cases hlt : reason.length < failureDatalen
    · rw [if_pos hlt, Option.bind_some]
      simp only [failureHmacMatches_message, if_true, hlt]
    · rw [if_neg hlt, Option.bind_some]
      refine ⟨fun hread => ?_, fun h => absurd h hlt⟩
      -- a layer further in belongs to a later hop
      obtain ⟨layer, -, hhop, -⟩ := failureReadLoop_layer hread
      omega

theorem failureArrives_iff_hidden {secrets : List Bytes} {hop : Nat} {reason : Bytes}
    (hhop : hop < secrets.length) (hreason : reason.length ≤ failureDatalen) :
    FailureArrives crypto secrets hop reason ↔
      reason.length < failureDatalen ∧ LayersHidden crypto secrets hop reason := by
  have hsecret := List.getElem?_eq_getElem hhop
  obtain ⟨made, hmade⟩ : ∃ made, lnOnionFailureCreate crypto secrets[hop] reason = some made :=
    ⟨_, by rw [lnOnionFailureCreate, if_neg (Nat.not_lt_of_le hreason)]⟩
  have hpacket : failurePacket crypto secrets hop reason =
      some (wrapFailure crypto (secrets.take hop) made) := by
    rw [failurePacket, hsecret, Option.bind_some, hmade, Option.map_some]
  have hhidden : LayersHidden crypto secrets hop reason ↔
      ∀ layer < (secrets.take hop).length, failureReason
        (wrapFailure crypto ((secrets.take hop).drop (layer + 1)) made) = some none := by
    rw [LayersHidden, List.length_take, Nat.min_eq_left hhop.le]
    simp [failurePacketAt, hsecret, hmade]
  have hloop := @failureReadLoop_wrapped crypto (secrets.take hop) (secrets.drop hop) 0 made reason
  rw [List.take_append_drop, Nat.zero_add, List.length_take, Nat.min_eq_left hhop.le] at hloop
  rw [List.drop_eq_getElem_cons hhop, failureReadLoop_made hmade] at hloop
  rw [hhidden, List.length_take, Nat.min_eq_left hhop.le, and_comm, ← hloop]
  simp only [FailureArrives, hpacket, lnOnionFailureRead, Option.some.injEq, exists_eq_left']

/-- For every route, failing hop and reason that `ln_onion_failure_create` takes: the
payer reads the reason and the hop exactly when the reason leaves room for padding and
no layer before looks like a failure message by chance. -/
theorem failureArrives_iff (crypto : OnionCrypto) (secrets : List Bytes) (hop : Nat)
    (reason : Bytes) (hhop : hop < secrets.length) (hreason : reason.length ≤ failureDatalen) :
    (FailureArrives crypto secrets hop reason ↔
      reason.length < failureDatalen ∧ LayersHidden crypto secrets hop reason) ∧
    OnlyAuthentic crypto :=
  ⟨failureArrives_iff_hidden hhop hreason, onlyAuthentic crypto⟩

/-- A reason of two bytes from the second of two hops. -/
theorem failureArrives_secondHop :
    1 < [[1], [2]].length ∧ [0x20, 0x02].length ≤ failureDatalen ∧
      FailureArrives .additive [[1], [2]] 1 [0x20, 0x02] := by
  refine ⟨by decide, by decide, (failureArrives_iff .additive [[1], [2]] 1 [0x20, 0x02] (by decide)
    (by decide)).1.mpr ⟨by decide, ?_⟩⟩
  intro earlier hearlier packet hpacket
  obtain rfl : earlier = 0 := Nat.lt_one_iff.mp hearlier
  obtain rfl := Option.some.inj hpacket
  decide +kernel

/-- A reason that leaves no padding is never read. -/
theorem failureLost_fullReason :
    (List.replicate 256 (0x20 : UInt8)).length ≤ failureDatalen ∧
      ¬ FailureArrives .additive [[1]] 0 (List.replicate 256 0x20) := by
  have hlength : (List.replicate 256 (0x20 : UInt8)).length = failureDatalen :=
    List.length_replicate
  refine ⟨hlength.le, fun harrives => ?_⟩
  have hpadding := ((failureArrives_iff_hidden (by decide) hlength.le).mp harrives).1
  exact absurd hlength (Nat.ne_of_lt hpadding)

end Ptarmigan
