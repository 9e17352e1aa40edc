/-
The handshake of two nodes: the values that both compute, in the order in which they
are mixed in, and that a node whose act was changed on the way never gets to the end.
-/
import Ptarmigan.Library.KeyStream
import Ptarmigan.Transport

namespace Ptarmigan

/-- The private keys of a handshake: the static ones of both nodes and the ephemeral
ones that they make for it. -/
structure Session where
  initiator : Bytes
  initiatorE : Bytes
  responder : Bytes
  responderE : Bytes

/-- A message that was encrypted, and the values it was encrypted with. -/
structure Sealed where
  key : Bytes
  nonce : Nat
  ad : Bytes
  plain : Bytes
deriving DecidableEq, Repr

/-! ### The transcript -/

namespace Session

variable (crypto : NoiseCrypto) (session : Session)

/-- `ck` before the first act. -/
def ckStart : Bytes :=
  crypto.sha256 protocolName

/-- `h` before the first act. -/
def hStart : Bytes :=
  crypto.sha256cat (crypto.sha256cat (ckStart crypto) prologue) (crypto.priv2pub session.responder)

/-- `h` with the ephemeral key of the initiator. -/
def hOne : Bytes :=
  crypto.sha256cat (session.hStart crypto) (crypto.priv2pub session.initiatorE)

/-- `ck` and `temp_k1`. -/
def keysOne : Bytes × Bytes :=
  crypto.hkdf (ckStart crypto)
    (some (crypto.sharedSecret (crypto.priv2pub session.responder) session.initiatorE))

/-- The tag of act one. -/
def tagOne : Bytes :=
  crypto.encrypt (session.keysOne crypto).2 0 (session.hOne crypto) []

/-- `h` after act one. -/
def hOneEnd : Bytes :=
  crypto.sha256cat (session.hOne crypto) (session.tagOne crypto)

/-- `h` with the ephemeral key of the responder. -/
def hTwo : Bytes :=
  crypto.sha256cat (session.hOneEnd crypto) (crypto.priv2pub session.responderE)

/-- `ck` and `temp_k2`. -/
def keysTwo : Bytes × Bytes :=
  crypto.hkdf (session.keysOne crypto).1
    (some (crypto.sharedSecret (crypto.priv2pub session.initiatorE) session.responderE))

/-- The tag of act two. -/
def tagTwo : Bytes :=
  crypto.encrypt (session.keysTwo crypto).2 0 (session.hTwo crypto) []

/-- `h` after act two. -/
def hTwoEnd : Bytes :=
  crypto.sha256cat (session.hTwo crypto) (session.tagTwo crypto)

/-- The static key of the initiator, encrypted. -/
def staticKey : Bytes :=
  crypto.encrypt (session.keysTwo crypto).2 1 (session.hTwoEnd crypto)
    (crypto.priv2pub session.initiator)

/-- `h` with the static key of the initiator. -/
def hThree : Bytes :=
  crypto.sha256cat (session.hTwoEnd crypto) (session.staticKey crypto)

/-- `ck` and `temp_k3`. -/
def keysThree : Bytes × Bytes :=
  crypto.hkdf (session.keysTwo crypto).1
    (some (crypto.sharedSecret (crypto.priv2pub session.responderE) session.initiator))

/-- The tag of act three. -/
def tagThree : Bytes :=
  crypto.encrypt (session.keysThree crypto).2 0 (session.hThree crypto) []

def actOne : Bytes :=
  [0x00] ++ crypto.priv2pub session.initiatorE ++ session.tagOne crypto

def actTwo : Bytes :=
  [0x00] ++ crypto.priv2pub session.responderE ++ session.tagTwo crypto

def actThree : Bytes :=
  [0x00] ++ session.staticKey crypto ++ session.tagThree crypto

/-- All that the two nodes encrypt in the handshake. -/
def sealed : List Sealed :=
  [⟨(session.keysOne crypto).2, 0, session.hOne crypto, []⟩,
    ⟨(session.keysTwo crypto).2, 0, session.hTwo crypto, []⟩,
    ⟨(session.keysTwo crypto).2, 1, session.hTwoEnd crypto, crypto.priv2pub session.initiator⟩,
    ⟨(session.keysThree crypto).2, 0, session.hThree crypto, []⟩]

/-- The keys at the end: the initiator sends with the first and receives with the second. -/
def finalKeys : Bytes × Bytes :=
  crypto.hkdf (session.keysThree crypto).1 none

end Session

/-- What the handshake relies on, for all keys: the order of the keys of a shared secret does not
matter, the hash tells all its arguments apart, and decryption gives back what was encrypted with
the same key, nonce and data, and opens nothing else. -/
structure HandshakeLaws (crypto : NoiseCrypto) : Prop where
  shared_comm : ∀ left right, crypto.sharedSecret (crypto.priv2pub left) right =
    crypto.sharedSecret (crypto.priv2pub right) left
  hash_inj : ∀ h h' data data', crypto.sha256cat h data = crypto.sha256cat h' data' →
    h = h' ∧ data = data'
  decrypts : DecryptsEncrypted crypto
  opens : ∀ key nonce ad cipher plain, crypto.decrypt key nonce ad cipher = some plain →
    cipher = crypto.encrypt key nonce ad plain

/-! ### Forged ciphertexts -/

namespace Session

variable (crypto : NoiseCrypto) (session : Session)

/-- A ciphertext that opens was encrypted by one of the two nodes with the same values. -/
def Unforged (key : Bytes) (nonce : Nat) (ad cipher : Bytes) : Prop :=
  ∀ plain, crypto.decrypt key nonce ad cipher = some plain →
    ⟨key, nonce, ad, plain⟩ ∈ session.sealed crypto

/-- What a responder opens in place of act one is not forged.  (Who has an ephemeral key of their
own can make an act one.) -/
def UnforgedOne (buf : Bytes) : Prop :=
  let re := (buf.drop 1).take 33
  session.Unforged crypto
    (crypto.hkdf (ckStart crypto) (some (crypto.sharedSecret re session.responder))).2 0
    (crypto.sha256cat (session.hStart crypto) re) ((buf.drop 34).take 16)

/-- What an initiator opens in place of act two is not forged. -/
def UnforgedTwo (buf : Bytes) : Prop :=
  let re := (buf.drop 1).take 33
  session.Unforged crypto
    (crypto.hkdf (session.keysOne crypto).1
      (some (crypto.sharedSecret re session.initiatorE))).2 0
    (crypto.sha256cat (session.hOneEnd crypto) re) ((buf.drop 34).take 16)

/-- What a responder opens in place of act three is not forged: the static key, and the tag with
the key that comes of it. -/
def UnforgedThree (buf : Bytes) : Prop :=
  let c := (buf.drop 1).take 49
  session.Unforged crypto (session.keysTwo crypto).2 1 (session.hTwoEnd crypto) c ∧
    ∀ rs, crypto.decrypt (session.keysTwo crypto).2 1 (session.hTwoEnd crypto) c = some rs →
      session.Unforged crypto
        (crypto.hkdf (session.keysTwo crypto).1
          (some (crypto.sharedSecret rs session.responderE))).2 0
        (crypto.sha256cat (session.hTwoEnd crypto) c) ((buf.drop 50).take 16)

end Session

/-- What the handshake comes to for a side, whatever comes after. -/
def handshakeRecvAll (crypto : NoiseCrypto) (node : BtcUtilKeys) :
    NoiseSelf → List Bytes → NoiseSelf × List (Option Bytes)
  | self, [] => (self, [])
  | self, buf :: rest =>
      let done := lnEncAuthHandshakeRecv crypto node self buf
      let after := handshakeRecvAll crypto node done.1 rest
      (after.1, done.2 :: after.2)

/-- The side fails at the bytes, and at whatever comes after them: its handshake is gone
and no keys are set. -/
def RefusesAct (crypto : NoiseCrypto) (node : BtcUtilKeys) (self : NoiseSelf) (buf : Bytes) :
    Prop :=
  ∀ later, (∀ reply ∈ (handshakeRecvAll crypto node self (buf :: later)).2, reply = none) ∧
    (handshakeRecvAll crypto node self (buf :: later)).1.handshake = none ∧
    (handshakeRecvAll crypto node self (buf :: later)).1.noiseSend.key = self.noiseSend.key ∧
    (handshakeRecvAll crypto node self (buf :: later)).1.noiseRecv.key = self.noiseRecv.key

/-- The two sides are done, and what one sends with is what the other receives with. -/
structure Agreed (left right : NoiseSelf) : Prop where
  done : left.handshake = none ∧ right.handshake = none
  forth : left.noiseSend = right.noiseRecv
  back : left.noiseRecv = right.noiseSend
  ck : left.noiseSend.ck = left.noiseRecv.ck
  nonces : left.noiseSend.nonce = 0 ∧ left.noiseRecv.nonce = 0

/-- The handshake of two nodes, with any state before it: unchanged acts bring both to
the end, where the responder has the node id of the initiator, and every other act without a
forged ciphertext makes the side that gets it fail. -/
def HandshakeAgrees (crypto : NoiseCrypto) (session : Session) (left right : NoiseSelf) : Prop :=
  let initiator := crypto.createkeys session.initiator
  let responder := crypto.createkeys session.responder
  let left := lnEncAuthHandshakeInit crypto initiator (crypto.createkeys session.initiatorE) left
    (some responder.pub)
  let right := lnEncAuthHandshakeInit crypto responder (crypto.createkeys session.responderE) right
    none
  ∃ left₁ left₂ right₁ right₂ actOne actTwo actThree,
    lnEncAuthHandshakeStart crypto left responder.pub = (left₁, some actOne) ∧
    lnEncAuthHandshakeRecv crypto responder right actOne = (right₁, some actTwo) ∧
    lnEncAuthHandshakeRecv crypto initiator left₁ actTwo = (left₂, some actThree) ∧
    lnEncAuthHandshakeRecv crypto responder right₁ actThree = (right₂, some initiator.pub) ∧
    Agreed left₂ right₂ ∧
    (∀ other, other ≠ actOne → session.UnforgedOne crypto other →
      RefusesAct crypto responder right other) ∧
    (∀ other, other ≠ actTwo → session.UnforgedTwo crypto other →
      RefusesAct crypto initiator left₁ other) ∧
    (∀ other, other ≠ actThree → session.UnforgedThree crypto other →
      RefusesAct crypto responder right₁ other)

section Handshake

variable {crypto : NoiseCrypto} {session : Session} {node : BtcUtilKeys} {self : NoiseSelf}

theorem handshakeRecvAll_ended (hended : self.handshake = none) (bufs : List Bytes) :
    handshakeRecvAll crypto node self bufs = (self, bufs.map fun _ => none) := by
  induction bufs with
  | nil => rfl
  | cons buf rest ih =>
      have hrecv : lnEncAuthHandshakeRecv crypto node self buf = (self, none) := by
        rw [lnEncAuthHandshakeRecv, hended]
      rw [handshakeRecvAll, hrecv]
      dsimp only
      rw [ih, List.map_cons]

theorem refusesAct_of_recv {buf : Bytes} {after : NoiseSelf}
    (hrecv : lnEncAuthHandshakeRecv crypto node self buf = (after, none))
    (hended : after.handshake = none) (hsend : after.noiseSend.key = self.noiseSend.key)
    (hkeys : after.noiseRecv.key = self.noiseRecv.key) : RefusesAct crypto node self buf := by
  intro later
  have hall : handshakeRecvAll crypto node self (buf :: later) =
      (after, none :: later.map fun _ => none) := by
    rw [handshakeRecvAll, hrecv]
    dsimp only
    rw [handshakeRecvAll_ended hended]
  rw [hall]
  refine ⟨?_, hended, hsend, hkeys⟩
  intro reply hreply
  rcases List.mem_cons.mp hreply with hfirst | hlater
  · exact hfirst
  · obtain ⟨_, -, hnone⟩ := List.mem_map.mp hlater
    exact hnone.symm

/-- An act consists of its version and two parts. -/
theorem act_parts {first second : Nat} {buf : Bytes} (hlength : buf.length = 1 + first + second)
    (hversion : buf.headD 0 = 0x00) :
    buf = [0x00] ++ (buf.drop 1).take first ++ (buf.drop (1 + first)).take second := by
  cases buf with
  | nil =>
      rw [List.length_nil] at hlength
      omega
  | cons version rest =>
      have hrest : rest.length = first + second := by
        rw [List.length_cons] at hlength
        omega
      obtain rfl : version = 0x00 := hversion
      have hsecond : (rest.drop first).take second = rest.drop first :=
        List.take_of_length_le (by rw [List.length_drop]; omega)
      rw [Nat.add_comm 1 first, List.drop_succ_cons, List.drop_succ_cons, List.drop_zero, hsecond,
        List.append_assoc, List.take_append_drop]
      rfl

theorem take_act {first second : Bytes} {len : Nat} (hlen : first.length = len) :
    (([0x00] ++ first ++ second).drop 1).take len = first := by
  rw [List.append_assoc]
  exact List.take_left' hlen

theorem drop_act {first second : Bytes} {start len : Nat} (hstart : 1 + first.length = start)
    (hlen : second.length = len) :
    (([0x00] ++ first ++ second).drop start).take len = second := by
  rw [List.drop_left' (by simpa [Nat.add_comm] using hstart)]
  exact List.take_of_length_le hlen.le

/-! ### What decrypts -/

theorem length_tagOne : (session.tagOne crypto).length = 16 :=
  crypto.length_encrypt _ _ _ _

theorem length_tagTwo : (session.tagTwo crypto).length = 16 :=
  crypto.length_encrypt _ _ _ _

theorem length_tagThree : (session.tagThree crypto).length = 16 :=
  crypto.length_encrypt _ _ _ _

theorem length_staticKey : (session.staticKey crypto).length = 49 :=
  (crypto.length_encrypt _ _ _ _).trans (by rw [crypto.length_priv2pub])

theorem mem_sealed {entry : Sealed} : entry ∈ session.sealed crypto ↔
    entry = ⟨(session.keysOne crypto).2, 0, session.hOne crypto, []⟩ ∨
    entry = ⟨(session.keysTwo crypto).2, 0, session.hTwo crypto, []⟩ ∨
    entry = ⟨(session.keysTwo crypto).2, 1, session.hTwoEnd crypto,
      crypto.priv2pub session.initiator⟩ ∨
    entry = ⟨(session.keysThree crypto).2, 0, session.hThree crypto, []⟩ := by
  simp [Session.sealed]

variable (laws : HandshakeLaws crypto)

include laws

/-- Hashes whose last parts differ in length differ. -/
theorem hash_ne {h h' data data' : Bytes} (hlength : data.length ≠ data'.length) :
    crypto.sha256cat h data ≠ crypto.sha256cat h' data' := by
  intro hsame
  exact hlength (congrArg List.length (laws.hash_inj _ _ _ _ hsame).2)

/-- The hash before act one and the one after it differ. -/
theorem hStart_ne_hOneEnd : session.hStart crypto ≠ session.hOneEnd crypto :=
  hash_ne laws (by rw [crypto.length_priv2pub, length_tagOne]; decide)

/-- With the hash that the responder expects, only act one decrypts. -/
theorem decrypt_actOne {key re cipher plain : Bytes} (hre : re.length = 33)
    (hunforged : session.Unforged crypto key 0 (crypto.sha256cat (session.hStart crypto) re) cipher)
    (hdecrypt : crypto.decrypt key 0 (crypto.sha256cat (session.hStart crypto) re) cipher =
      some plain) :
    re = crypto.priv2pub session.initiatorE ∧ cipher = session.tagOne crypto := by
  have hmem := hunforged plain hdecrypt
  have hcipher := laws.opens _ _ _ _ _ hdecrypt
  rcases mem_sealed.mp hmem with hentry | hentry | hentry | hentry
  · obtain ⟨rfl, -, had, rfl⟩ := Sealed.mk.inj hentry
    rw [had] at hcipher
    exact ⟨(laws.hash_inj _ _ _ _ had).2, hcipher⟩
  · obtain ⟨-, -, had, -⟩ := Sealed.mk.inj hentry
    exact absurd (laws.hash_inj _ _ _ _ had).1 (hStart_ne_hOneEnd laws)
  · cases (Sealed.mk.inj hentry).2.1
  · obtain ⟨-, -, had, -⟩ := Sealed.mk.inj hentry
    exact absurd had (hash_ne laws (by rw [hre, length_staticKey]; decide))

/-- With the hash that the initiator expects, only act two decrypts. -/
theorem decrypt_actTwo {key re cipher plain : Bytes} (hre : re.length = 33)
    (hunforged : session.Unforged crypto key 0 (crypto.sha256cat (session.hOneEnd crypto) re)
      cipher)
    (hdecrypt : crypto.decrypt key 0 (crypto.sha256cat (session.hOneEnd crypto) re) cipher =
      some plain) :
    re = crypto.priv2pub session.responderE ∧ cipher = session.tagTwo crypto := by
  have hmem := hunforged plain hdecrypt
  have hcipher := laws.opens _ _ _ _ _ hdecrypt
  rcases mem_sealed.mp hmem with hentry | hentry | hentry | hentry
  · obtain ⟨-, -, had, -⟩ := Sealed.mk.inj hentry
    exact absurd (laws.hash_inj _ _ _ _ had).1.symm (hStart_ne_hOneEnd laws)
  · obtain ⟨rfl, -, had, rfl⟩ := Sealed.mk.inj hentry
    rw [had] at hcipher
    exact ⟨(laws.hash_inj _ _ _ _ had).2, hcipher⟩
  · cases (Sealed.mk.inj hentry).2.1
  · obtain ⟨-, -, had, -⟩ := Sealed.mk.inj hentry
    exact absurd had (hash_ne laws (by rw [hre, length_staticKey]; decide))

/-- With the hash after act two, only the static key of the initiator decrypts. -/
theorem decrypt_staticKey {key cipher plain : Bytes}
    (hunforged : session.Unforged crypto key 1 (session.hTwoEnd crypto) cipher)
    (hdecrypt : crypto.decrypt key 1 (session.hTwoEnd crypto) cipher = some plain) :
    cipher = session.staticKey crypto ∧ plain = crypto.priv2pub session.initiator := by
  have hmem := hunforged plain hdecrypt
  have hcipher := laws.opens _ _ _ _ _ hdecrypt
  rcases mem_sealed.mp hmem with hentry | hentry | hentry | hentry
  · cases (Sealed.mk.inj hentry).2.1
  · cases (Sealed.mk.inj hentry).2.1
  · obtain ⟨rfl, -, -, rfl⟩ := Sealed.mk.inj hentry
    exact ⟨hcipher, rfl⟩
  · cases (Sealed.mk.inj hentry).2.1

/-- With the hash of act three, only its tag decrypts. -/
theorem decrypt_tagThree {key cipher plain : Bytes}
    (hunforged : session.Unforged crypto key 0 (session.hThree crypto) cipher)
    (hdecrypt : crypto.decrypt key 0 (session.hThree crypto) cipher = some plain) :
    cipher = session.tagThree crypto := by
  have hmem := hunforged plain hdecrypt
  have hcipher := laws.opens _ _ _ _ _ hdecrypt
  have hkey : (crypto.priv2pub session.initiatorE).length ≠ (session.staticKey crypto).length := by
    rw [crypto.length_priv2pub, length_staticKey]
    decide
  have hkey' : (crypto.priv2pub session.responderE).length ≠ (session.staticKey crypto).length := by
    rw [crypto.length_priv2pub, length_staticKey]
    decide
  rcases mem_sealed.mp hmem with hentry | hentry | hentry | hentry
  · exact absurd (Sealed.mk.inj hentry).2.2.1.symm (hash_ne laws hkey)
  · exact absurd (Sealed.mk.inj hentry).2.2.1.symm (hash_ne laws hkey')
  · cases (Sealed.mk.inj hentry).2.1
  · obtain ⟨rfl, -, -, rfl⟩ := Sealed.mk.inj hentry
    exact hcipher

omit laws

/-! ### The two machines -/

/-- The initiator that has sent act one. -/
def Session.waitTwo (crypto : NoiseCrypto) (session : Session) : Bolt8 where
  e := crypto.createkeys session.initiatorE
  h := session.hOneEnd crypto
  ck := (session.keysOne crypto).1
  tempK := (session.keysOne crypto).2
  state := .waitActTwo

/-- The responder at the start. -/
def Session.waitOne (crypto : NoiseCrypto) (session : Session) : Bolt8 where
  e := crypto.createkeys session.responderE
  h := session.hStart crypto
  ck := Session.ckStart crypto
  tempK := []
  state := .waitActOne

/-- The responder that has sent act two. -/
def Session.waitThree (crypto : NoiseCrypto) (session : Session) : Bolt8 where
  e := crypto.createkeys session.responderE
  h := session.hTwoEnd crypto
  ck := (session.keysTwo crypto).1
  tempK := (session.keysTwo crypto).2
  state := .waitActThree

theorem start_initiator :
    lnEncAuthHandshakeStart crypto
      (lnEncAuthHandshakeInit crypto (crypto.createkeys session.initiator)
        (crypto.createkeys session.initiatorE) self (some (crypto.priv2pub session.responder)))
      (crypto.priv2pub session.responder) =
      ({ self with handshake := some (session.waitTwo crypto) }, some (session.actOne crypto)) :=
  rfl

theorem recv_waitOne (buf : Bytes) :
    lnEncAuthHandshakeRecv crypto node
      { self with handshake := some (session.waitOne crypto) } buf =
      match actoneReceiver crypto node (session.waitOne crypto) buf with
      | (_, none) => ({ self with handshake := none }, none)
      | (bolt, some reply) =>
          ({ self with handshake := some { bolt with state := .waitActThree } }, some reply) :=
  rfl

theorem recv_waitTwo (buf : Bytes) :
    lnEncAuthHandshakeRecv crypto node
      { self with handshake := some (session.waitTwo crypto) } buf =
      (self.endHandshake (acttwoReceiver crypto node (session.waitTwo crypto) buf),
        (acttwoReceiver crypto node (session.waitTwo crypto) buf).buf) :=
  rfl

theorem recv_waitThree (buf : Bytes) :
    lnEncAuthHandshakeRecv crypto node
      { self with handshake := some (session.waitThree crypto) } buf =
      (self.endHandshake (actthreeReceiver crypto (session.waitThree crypto) buf),
        (actthreeReceiver crypto (session.waitThree crypto) buf).buf) :=
  rfl

/-- An act that ends the handshake of a side without a reply sets no keys. -/
theorem refusesAct_of_ended {done : ActDone} {buf : Bytes}
    (hrecv : lnEncAuthHandshakeRecv crypto node self buf = (self.endHandshake done, none))
    (hkeys : done.keys = none) : RefusesAct crypto node self buf := by
  apply refusesAct_of_recv hrecv rfl
  · rw [NoiseSelf.endHandshake, hkeys]
    rfl
  · rw [NoiseSelf.endHandshake, hkeys]
    rfl

include laws

theorem actoneReceiver_actOne :
    actoneReceiver crypto (crypto.createkeys session.responder) (session.waitOne crypto)
      (session.actOne crypto) =
      ({ session.waitThree crypto with state := .waitActOne }, some (session.actTwo crypto)) := by
  have hlength : (session.actOne crypto).length = 50 := by
    simp [Session.actOne, crypto.length_priv2pub, length_tagOne]
  have hre : ((session.actOne crypto).drop 1).take 33 = crypto.priv2pub session.initiatorE :=
    take_act (crypto.length_priv2pub _)
  have hc : ((session.actOne crypto).drop 34).take 16 = session.tagOne crypto :=
    drop_act (by rw [crypto.length_priv2pub]) length_tagOne
  have hdecrypt : crypto.decrypt (session.keysOne crypto).2 0 (session.hOne crypto)
      (session.tagOne crypto) = some [] := laws.decrypts _ _ _ _
  have hpriv : (crypto.createkeys session.responder).priv = session.responder := rfl
  have hopen : Bolt8.decryptWithAD crypto (Bolt8.mixKey crypto
      (Bolt8.mixHash crypto (session.waitOne crypto) (crypto.priv2pub session.initiatorE))
      (crypto.sharedSecret (crypto.priv2pub session.responder) session.initiatorE)) 0
      (session.tagOne crypto) = some [] := hdecrypt
  rw [actoneReceiver, if_neg (by rw [hlength]; simp [Session.actOne]), hre, hc, hpriv]
  dsimp only
  rw [laws.shared_comm session.initiatorE session.responder, hopen]
  rfl

theorem actoneReceiver_other {other : Bytes} (hother : other ≠ session.actOne crypto)
    (hunforged : session.UnforgedOne crypto other) :
    (actoneReceiver crypto (crypto.createkeys session.responder) (session.waitOne crypto)
      other).2 = none := by
  rw [actoneReceiver]
  split
  · rfl
  · rename_i hform
    obtain ⟨hlength, hversion⟩ := not_or.mp hform
    rw [ne_eq, not_not] at hlength hversion
    dsimp only
    split
    · rfl
    · rename_i plain hdecrypt
      -- both parts are those of the act that was sent
      have hre : ((other.drop 1).take 33).length = 33 := by
        simp [hlength]
      obtain ⟨hkey, htag⟩ := decrypt_actOne laws hre hunforged hdecrypt
      have hparts := @act_parts 33 16 other hlength hversion
      rw [hkey, htag] at hparts
      exact absurd hparts hother

theorem acttwoReceiver_actTwo :
    acttwoReceiver crypto (crypto.createkeys session.initiator) (session.waitTwo crypto)
      (session.actTwo crypto) =
      ⟨{ e := crypto.createkeys session.initiatorE
         h := session.hThree crypto
         ck := (session.keysThree crypto).1
         tempK := (session.keysThree crypto).2
         state := .waitActTwo }, some (session.finalKeys crypto),
         some (session.actThree crypto)⟩ := by
  have hlength : (session.actTwo crypto).length = 50 := by
    simp [Session.actTwo, crypto.length_priv2pub, length_tagTwo]
  have hre : ((session.actTwo crypto).drop 1).take 33 = crypto.priv2pub session.responderE :=
    take_act (crypto.length_priv2pub _)
  have hc : ((session.actTwo crypto).drop 34).take 16 = session.tagTwo crypto :=
    drop_act (by rw [crypto.length_priv2pub]) length_tagTwo
  have hdecrypt : crypto.decrypt (session.keysTwo crypto).2 0 (session.hTwo crypto)
      (session.tagTwo crypto) = some [] := laws.decrypts _ _ _ _
  have hmixed : ∀ data, (Bolt8.mixHash crypto (session.waitTwo crypto) data).e.priv =
      session.initiatorE := fun _ => rfl
  have hopen : Bolt8.decryptWithAD crypto (Bolt8.mixKey crypto
      (Bolt8.mixHash crypto (session.waitTwo crypto) (crypto.priv2pub session.responderE))
      (crypto.sharedSecret (crypto.priv2pub session.initiatorE) session.responderE)) 0
      (session.tagTwo crypto) = some [] := hdecrypt
  rw [acttwoReceiver, if_neg (by rw [hlength]; simp [Session.actTwo]), hre, hc]
  dsimp only
  rw [hmixed, laws.shared_comm session.responderE session.initiatorE, hopen]
  rfl

theorem acttwoReceiver_other {other : Bytes} (hother : other ≠ session.actTwo crypto)
    (hunforged : session.UnforgedTwo crypto other) :
    (acttwoReceiver crypto node (session.waitTwo crypto) other).buf = none ∧
      (acttwoReceiver crypto node (session.waitTwo crypto) other).keys = none := by
  rw [acttwoReceiver]
  split
  · exact ⟨rfl, rfl⟩
  · rename_i hform
    obtain ⟨hlength, hversion⟩ := not_or.mp hform
    rw [ne_eq, not_not] at hlength hversion
    dsimp only
    split
    · exact ⟨rfl, rfl⟩
    · rename_i plain hdecrypt
      have hre : ((other.drop 1).take 33).length = 33 := by
        simp [hlength]
      obtain ⟨hkey, htag⟩ := decrypt_actTwo laws hre hunforged hdecrypt
      have hparts := @act_parts 33 16 other hlength hversion
      rw [hkey, htag] at hparts
      exact absurd hparts hother

theorem actthreeReceiver_actThree :
    actthreeReceiver crypto (session.waitThree crypto) (session.actThree crypto) =
      ⟨{ e := crypto.createkeys session.responderE
         h := session.hThree crypto
         ck := (session.keysThree crypto).1
         tempK := (session.keysThree crypto).2
         state := .waitActThree }, some (session.finalKeys crypto).swap,
        some (crypto.priv2pub session.initiator)⟩ := by
  have hlength : (session.actThree crypto).length = 66 := by
    simp [Session.actThree, length_staticKey, length_tagThree]
  have hc : ((session.actThree crypto).drop 1).take 49 = session.staticKey crypto :=
    take_act length_staticKey
  have ht : ((session.actThree crypto).drop 50).take 16 = session.tagThree crypto :=
    drop_act (by rw [length_staticKey]) length_tagThree
  have hstatic : crypto.decrypt (session.keysTwo crypto).2 1 (session.hTwoEnd crypto)
      (session.staticKey crypto) = some (crypto.priv2pub session.initiator) :=
    laws.decrypts _ _ _ _
  have htag : crypto.decrypt (session.keysThree crypto).2 0 (session.hThree crypto)
      (session.tagThree crypto) = some [] := laws.decrypts _ _ _ _
  have hfirst : Bolt8.decryptWithAD crypto (session.waitThree crypto) 1
      (session.staticKey crypto) = some (crypto.priv2pub session.initiator) := hstatic
  have hmixed : ∀ data, (Bolt8.mixHash crypto (session.waitThree crypto) data).e.priv =
      session.responderE := fun _ => rfl
  have hsecond : Bolt8.decryptWithAD crypto (Bolt8.mixKey crypto
      (Bolt8.mixHash crypto (session.waitThree crypto) (session.staticKey crypto))
      (crypto.sharedSecret (crypto.priv2pub session.responderE) session.initiator)) 0
      (session.tagThree crypto) = some [] := htag
  rw [actthreeReceiver, if_neg (by rw [hlength]; simp [Session.actThree]), hc, ht]
  dsimp only
  rw [hfirst]
  dsimp only
  rw [hmixed, laws.shared_comm session.initiator session.responderE, hsecond]
  rfl

theorem actthreeReceiver_other {other : Bytes} (hother : other ≠ session.actThree crypto)
    (hunforged : session.UnforgedThree crypto other) :
    (actthreeReceiver crypto (session.waitThree crypto) other).buf = none ∧
      (actthreeReceiver crypto (session.waitThree crypto) other).keys = none := by
  rw [actthreeReceiver]
  split
  · exact ⟨rfl, rfl⟩
  · rename_i hform
    obtain ⟨hlength, hversion⟩ := not_or.mp hform
    rw [ne_eq, not_not] at hlength hversion
    dsimp only
    split
    · exact ⟨rfl, rfl⟩
    · rename_i rs hstatic
      obtain ⟨hc, -⟩ := decrypt_staticKey laws hunforged.1 hstatic
      split
      · exact ⟨rfl, rfl⟩
      · rename_i plain htag
        have hlast := hunforged.2 rs hstatic
        rw [hc] at htag hlast
        have ht := decrypt_tagThree laws hlast htag
        have hparts := @act_parts 49 16 other hlength hversion
        rw [hc, ht] at hparts
        exact absurd hparts hother

theorem recv_actOne :
    lnEncAuthHandshakeRecv crypto (crypto.createkeys session.responder)
      { self with handshake := some (session.waitOne crypto) } (session.actOne crypto) =
      ({ self with handshake := some (session.waitThree crypto) },
        some (session.actTwo crypto)) := by
  rw [recv_waitOne, actoneReceiver_actOne laws]
  rfl

theorem recv_actTwo :
    lnEncAuthHandshakeRecv crypto (crypto.createkeys session.initiator)
      { self with handshake := some (session.waitTwo crypto) } (session.actTwo crypto) =
      (⟨⟨(session.finalKeys crypto).1, 0, (session.keysThree crypto).1⟩,
        ⟨(session.finalKeys crypto).2, 0, (session.keysThree crypto).1⟩, none⟩,
        some (session.actThree crypto)) := by
  rw [recv_waitTwo, acttwoReceiver_actTwo laws]
  rfl

theorem recv_actThree :
    lnEncAuthHandshakeRecv crypto (crypto.createkeys session.responder)
      { self with handshake := some (session.waitThree crypto) } (session.actThree crypto) =
      (⟨⟨(session.finalKeys crypto).2, 0, (session.keysThree crypto).1⟩,
        ⟨(session.finalKeys crypto).1, 0, (session.keysThree crypto).1⟩, none⟩,
        some (crypto.priv2pub session.initiator)) := by
  rw [recv_waitThree, actthreeReceiver_actThree laws]
  rfl

theorem refuses_waitOne {other : Bytes} (hother : other ≠ session.actOne crypto)
    (hunforged : session.UnforgedOne crypto other) :
    RefusesAct crypto (crypto.createkeys session.responder)
      { self with handshake := some (session.waitOne crypto) } other := by
  have hnone := actoneReceiver_other laws hother hunforged
  have hrecv : lnEncAuthHandshakeRecv crypto (crypto.createkeys session.responder)
      { self with handshake := some (session.waitOne crypto) } other =
        ({ self with handshake := none }, none) := by
    rw [recv_waitOne]
    generalize actoneReceiver crypto (crypto.createkeys session.responder)
      (session.waitOne crypto) other = act at hnone
    obtain ⟨bolt, reply⟩ := act
    dsimp only at hnone
    subst hnone
    rfl
  exact refusesAct_of_recv hrecv rfl rfl rfl

theorem refuses_waitTwo {other : Bytes} (hother : other ≠ session.actTwo crypto)
    (hunforged : session.UnforgedTwo crypto other) :
    RefusesAct crypto node { self with handshake := some (session.waitTwo crypto) } other := by
  obtain ⟨hnone, hkeys⟩ := @acttwoReceiver_other crypto session node laws other hother hunforged
  have hrecv := @recv_waitTwo crypto session node self other
  rw [hnone] at hrecv
  exact refusesAct_of_ended hrecv hkeys

theorem refuses_waitThree {other : Bytes} (hother : other ≠ session.actThree crypto)
    (hunforged : session.UnforgedThree crypto other) :
    RefusesAct crypto node { self with handshake := some (session.waitThree crypto) } other := by
  obtain ⟨hnone, hkeys⟩ := actthreeReceiver_other laws hother hunforged
  have hrecv := @recv_waitThree crypto session node self other
  rw [hnone] at hrecv
  exact refusesAct_of_ended hrecv hkeys

end Handshake

/-! ### After the handshake -/

/-- The connection of two sides that have agreed, before the first message. -/
def linkOf (left right : NoiseSelf) : NoiseLink where
  party
    | .initiator => ⟨left, none, false⟩
    | .responder => ⟨right, none, false⟩
  toward _ := []
  sent _ := []
  received _ := []

/-- The messages start from what the handshake ends with. -/
theorem completed_of_agreed {left right : NoiseSelf} (hagreed : Agreed left right) :
    (linkOf left right).Completed where
  keys side := by
    cases side with
    | initiator => exact hagreed.forth
    | responder => exact hagreed.back.symm
  nonce side := by
    cases side with
    | initiator => exact hagreed.nonces.1
    | responder => exact (congrArg Noise.nonce hagreed.back).symm.trans hagreed.nonces.2
  loop side := by cases side <;> exact ⟨rfl, rfl⟩
  empty _ := ⟨rfl, rfl, rfl⟩

/-! ### A handshake -/

/-- Both byte strings can be told from the pair. -/
def pairBytes (first second : Bytes) : Bytes :=
  match first with
  | [] => 0 :: second
  | byte :: rest => 1 :: byte :: pairBytes rest second

theorem pairBytes_inj {first first' second second' : Bytes}
    (hsame : pairBytes first second = pairBytes first' second') :
    first = first' ∧ second = second' := by
  induction first generalizing first' with
  | nil =>
      cases first' with
      | nil => exact ⟨rfl, (List.cons.inj hsame).2⟩
      | cons byte rest => exact absurd (List.cons.inj hsame).1 (by decide)
  | cons byte rest ih =>
      cases first' with
      | nil => exact absurd (List.cons.inj hsame).1 (by decide)
      | cons byte' rest' =>
          simp only [pairBytes, List.cons.injEq, true_and] at hsame
          obtain ⟨hrest, hsecond⟩ := ih hsame.2
          exact ⟨by rw [hsame.1, hrest], hsecond⟩

/-- A tag over all that is encrypted and what it is encrypted with. -/
def toyTag (key : Bytes) (nonce : Nat) (ad plain : Bytes) : Bytes :=
  let sum := (key ++ nonce.toUInt8 :: ad ++ plain).foldl (fun sum byte => 3 * sum + byte) 1
  sum :: List.replicate 15 0

def toyEncrypt (key : Bytes) (nonce : Nat) (ad plain : Bytes) : Bytes :=
  plain ++ toyTag key nonce ad plain

def toyDecrypt (key : Bytes) (nonce : Nat) (ad cipher : Bytes) : Option Bytes :=
  let plain := cipher.take (cipher.length - 16)
  if cipher = toyEncrypt key nonce ad plain then some plain else none

/-- Primitives for fixed inputs: the hash is a pair, and the tag one byte. -/
def NoiseCrypto.toy : NoiseCrypto where
  sha256 := id
  sha256cat := pairBytes
  hkdf salt ikm := (pairBytes salt (ikm.getD []), pairBytes salt (1 :: ikm.getD []))
  priv2pub priv := (priv ++ List.replicate 33 0).take 33
  sharedSecret pub priv := KeyStream.xorBytes pub ((priv ++ List.replicate 33 0).take 33)
  encrypt := toyEncrypt
  decrypt := toyDecrypt
  length_priv2pub := length_paddedPub
  length_encrypt _ _ _ _ := List.length_append

theorem handshakeLaws_toy : HandshakeLaws .toy where
  shared_comm left right := by
    simp only [NoiseCrypto.toy, KeyStream.xorBytes]
    exact List.zipWith_comm_of_comm UInt8.xor_comm
  hash_inj _ _ _ _ := pairBytes_inj
  decrypts key nonce ad plain := by
    have hlength : (toyEncrypt key nonce ad plain).length = plain.length + 16 :=
      List.length_append
    change toyDecrypt key nonce ad (toyEncrypt key nonce ad plain) = some plain
    rw [toyDecrypt, hlength, Nat.add_sub_cancel,
      show (toyEncrypt key nonce ad plain).take plain.length = plain from List.take_left,
      if_pos rfl]
  opens key nonce ad cipher plain hopens := by
    change toyDecrypt key nonce ad cipher = some plain at hopens
    simp only [toyDecrypt] at hopens
    split_ifs at hopens with hcipher
    obtain rfl := Option.some.inj hopens
    exact hcipher

/-- One bit of an act is turned. -/
def turnBit (act : Bytes) (pos : Nat) : Bytes :=
  act.modify pos (· ^^^ 1)

theorem unforged_of_none {session : Session} {key ad cipher : Bytes} {nonce : Nat}
    (hnone : NoiseCrypto.toy.decrypt key nonce ad cipher = none) :
    session.Unforged .toy key nonce ad cipher := by
  intro plain hopens
  rw [hnone] at hopens
  cases hopens

end Ptarmigan
