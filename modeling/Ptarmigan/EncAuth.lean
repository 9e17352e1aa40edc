/-
The encrypted connection (`ln_enc_auth`): the three acts of the handshake, and the
packets that follow it with their rotating keys.
-/
import Ptarmigan.Tx

namespace Ptarmigan

/-- The primitives that the connection rests on. -/
structure NoiseCrypto where
  /-- `btc_util_sha256`. -/
  sha256 : Bytes → Bytes
  /-- `btc_util_sha256cat`. -/
  sha256cat : Bytes → Bytes → Bytes
  /-- `noise_hkdf`: both halves, of a salt and of key material that may be absent. -/
  hkdf : Bytes → Option Bytes → Bytes × Bytes
  /-- `btc_keys_priv2pub`. -/
  priv2pub : Bytes → Bytes
  /-- `ln_misc_generate_shared_secret` and `ln_node_generate_shared_secret`. -/
  sharedSecret : Bytes → Bytes → Bytes
  /-- `mbedtls_chachapoly_encrypt_and_tag`, of key, nonce, additional data and message:
  the ciphertext with the tag behind it. -/
  encrypt : Bytes → Nat → Bytes → Bytes → Bytes
  /-- `mbedtls_chachapoly_auth_decrypt`, of a ciphertext with its tag. -/
  decrypt : Bytes → Nat → Bytes → Bytes → Option Bytes
  length_priv2pub : ∀ priv, (priv2pub priv).length = 33
  length_encrypt : ∀ key nonce ad plain, (encrypt key nonce ad plain).length = plain.length + 16

/-- `M_CHACHAPOLY_MAC`. -/
def chachapolyMac : Nat := 16

/-- `LN_SZ_NOISE_HEADER`. -/
def lnSzNoiseHeader : Nat := 18

/-- `btc_util_keys_t`. -/
structure BtcUtilKeys where
  priv : Bytes
  pub : Bytes
deriving DecidableEq, Repr

/-- `btc_util_createkeys`, with the random private key given. -/
def NoiseCrypto.createkeys (crypto : NoiseCrypto) (priv : Bytes) : BtcUtilKeys :=
  ⟨priv, crypto.priv2pub priv⟩

/-- `struct noise_t`: one direction of the connection.  The nonce is reset at 1000. -/
structure Noise where
  key : Bytes
  nonce : Nat
  ck : Bytes
deriving DecidableEq, Repr

/-- `enum state_t`. -/
inductive HandshakeState
  | init
  | startInitiator
  | waitActTwo
  | endInitiator
  | waitActOne
  | waitActThree
  | endResponder
deriving DecidableEq, Repr

/-- `struct bolt8_t`. -/
structure Bolt8 where
  e : BtcUtilKeys
  h : Bytes
  ck : Bytes
  tempK : Bytes
  state : HandshakeState
deriving DecidableEq, Repr

/-- What `ln_self_t` holds of the connection. -/
structure NoiseSelf where
  noiseSend : Noise
  noiseRecv : Noise
  handshake : Option Bolt8
deriving DecidableEq, Repr

/-! ### The handshake -/

/-- `M_PROTOCOL_NAME`. -/
def protocolName : Bytes :=
  "Noise_XK_secp256k1_ChaChaPoly_SHA256".toList.map fun char => char.toNat.toUInt8

/-- `M_PROLOGUE`. -/
def prologue : Bytes :=
  "lightning".toList.map fun char => char.toNat.toUInt8

section Acts

variable (crypto : NoiseCrypto)

/-- `h = SHA-256(h || data)`. -/
def Bolt8.mixHash (bolt : Bolt8) (data : Bytes) : Bolt8 :=
  { bolt with h := crypto.sha256cat bolt.h data }

/-- `ck, temp_k = HKDF(ck, ss)`. -/
def Bolt8.mixKey (bolt : Bolt8) (ss : Bytes) : Bolt8 :=
  { bolt with ck := (crypto.hkdf bolt.ck (some ss)).1, tempK := (crypto.hkdf bolt.ck (some ss)).2 }

/-- `encryptWithAD(temp_k, nonce, h, plain)`. -/
def Bolt8.encryptWithAD (bolt : Bolt8) (nonce : Nat) (plain : Bytes) : Bytes :=
  crypto.encrypt bolt.tempK nonce bolt.h plain

/-- `decryptWithAD(temp_k, nonce, h, c)`. -/
def Bolt8.decryptWithAD (bolt : Bolt8) (nonce : Nat) (c : Bytes) : Option Bytes :=
  crypto.decrypt bolt.tempK nonce bolt.h c

/-- `ln_enc_auth_handshake_init`: with the node id of the peer for the initiator, with
none for the responder, whose own one is used.  `temp_k` is not set yet. -/
def lnEncAuthHandshakeInit (node e : BtcUtilKeys) (self : NoiseSelf) (nodeId : Option Bytes) :
    NoiseSelf :=
  let ck := crypto.sha256 protocolName
  let bolt : Bolt8 :=
    { e := e
      h := crypto.sha256cat ck prologue
      ck := ck
      tempK := []
      state := if nodeId.isSome then .startInitiator else .waitActOne }
  { self with handshake := some (bolt.mixHash crypto (nodeId.getD node.pub)) }

/-- `actone_sender`. -/
def actoneSender (bolt : Bolt8) (rs : Bytes) : Bolt8 × Bytes :=
  let bolt := bolt.mixHash crypto bolt.e.pub
  let bolt := bolt.mixKey crypto (crypto.sharedSecret rs bolt.e.priv)
  let c := bolt.encryptWithAD crypto 0 []
  (bolt.mixHash crypto c, [0x00] ++ bolt.e.pub ++ c)

/-- `acttwo_sender`. -/
def acttwoSender (bolt : Bolt8) (re : Bytes) : Bolt8 × Bytes :=
  let bolt := bolt.mixHash crypto bolt.e.pub
  let bolt := bolt.mixKey crypto (crypto.sharedSecret re bolt.e.priv)
  let c := bolt.encryptWithAD crypto 0 []
  (bolt.mixHash crypto c, [0x00] ++ bolt.e.pub ++ c)

/-- `actone_receiver`: the reply is missing where it fails. -/
def actoneReceiver (node : BtcUtilKeys) (bolt : Bolt8) (buf : Bytes) : Bolt8 × Option Bytes :=
  if buf.length ≠ 50 ∨ buf.headD 0 ≠ 0x00 then (bolt, none)
  else
    let re := (buf.drop 1).take 33
    let c := (buf.drop 34).take 16
    let bolt := bolt.mixHash crypto re
    let bolt := bolt.mixKey crypto (crypto.sharedSecret re node.priv)
    match bolt.decryptWithAD crypto 0 c with
    | none => (bolt, none)
    | some _ =>
        let reply := acttwoSender crypto (bolt.mixHash crypto c) re
        (reply.1, some reply.2)

/-- What the last act that a side receives leaves: the handshake, the keys to send and
to receive with if it came that far, and what goes out in the buffer. -/
structure ActDone where
  bolt : Bolt8
  keys : Option (Bytes × Bytes)
  buf : Option Bytes
deriving DecidableEq, Repr

/-- `actthree_sender`. -/
def actthreeSender (node : BtcUtilKeys) (bolt : Bolt8) (re : Bytes) : ActDone :=
  let c := bolt.encryptWithAD crypto 1 node.pub
  let bolt := bolt.mixHash crypto c
  let bolt := bolt.mixKey crypto (crypto.sharedSecret re node.priv)
  let t := bolt.encryptWithAD crypto 0 []
  -- sk, rk = HKDF(ck, zero)
  ⟨bolt, some (crypto.hkdf bolt.ck none), some ([0x00] ++ c ++ t)⟩

/-- `acttwo_receiver`. -/
def acttwoReceiver (node : BtcUtilKeys) (bolt : Bolt8) (buf : Bytes) : ActDone :=
  if buf.length ≠ 50 ∨ buf.headD 0 ≠ 0x00 then ⟨bolt, none, none⟩
  else
    let re := (buf.drop 1).take 33
    let c := (buf.drop 34).take 16
    let bolt := bolt.mixHash crypto re
    let bolt := bolt.mixKey crypto (crypto.sharedSecret re bolt.e.priv)
    match bolt.decryptWithAD crypto 0 c with
    | none => ⟨bolt, none, none⟩
    | some _ => actthreeSender crypto node (bolt.mixHash crypto c) re

/-- `actthree_receiver`: the buffer takes the node id of the peer. -/
def actthreeReceiver (bolt : Bolt8) (buf : Bytes) : ActDone :=
  if buf.length ≠ 66 ∨ buf.headD 0 ≠ 0x00 then ⟨bolt, none, none⟩
  else
    let c := (buf.drop 1).take 49
    let t := (buf.drop 50).take 16
    match bolt.decryptWithAD crypto 1 c with
    | none => ⟨bolt, none, none⟩
    | some rs =>
        let bolt := bolt.mixHash crypto c
        let bolt := bolt.mixKey crypto (crypto.sharedSecret rs bolt.e.priv)
        match bolt.decryptWithAD crypto 0 t with
        | none => ⟨bolt, none, none⟩
        -- rk, sk = HKDF(ck, zero)
        | some _ => ⟨bolt, some (crypto.hkdf bolt.ck none).swap, some rs⟩

/-- `ln_enc_auth_handshake_start`. -/
def lnEncAuthHandshakeStart (self : NoiseSelf) (nodeId : Bytes) : NoiseSelf × Option Bytes :=
  match self.handshake with
  | none => (self, none)
  | some bolt =>
      if bolt.state ≠ .startInitiator then (self, none)
      else
        let act := actoneSender crypto bolt nodeId
        ({ self with handshake := some { act.1 with state := .waitActTwo } }, some act.2)

/-- The end of `ln_enc_auth_handshake_recv` for the last act of a side: the chaining key
and the nonces are set whether the act was good or not. -/
def NoiseSelf.endHandshake (self : NoiseSelf) (done : ActDone) : NoiseSelf where
  noiseSend := ⟨(done.keys.map Prod.fst).getD self.noiseSend.key, 0, done.bolt.ck⟩
  noiseRecv := ⟨(done.keys.map Prod.snd).getD self.noiseRecv.key, 0, done.bolt.ck⟩
  handshake := none

/-- `ln_enc_auth_handshake_recv`, by the node with the given keys. -/
def lnEncAuthHandshakeRecv (node : BtcUtilKeys) (self : NoiseSelf) (buf : Bytes) :
    NoiseSelf × Option Bytes :=
  match self.handshake with
  | none => (self, none)
  | some bolt =>
      match bolt.state with
      | .waitActTwo =>
          let done := acttwoReceiver crypto node bolt buf
          (self.endHandshake done, done.buf)
      | .waitActOne =>
          match actoneReceiver crypto node bolt buf with
          | (_, none) => ({ self with handshake := none }, none)
          | (bolt, some reply) =>
              ({ self with handshake := some { bolt with state := .waitActThree } }, some reply)
      | .waitActThree =>
          let done := actthreeReceiver crypto bolt buf
          (self.endHandshake done, done.buf)
      | _ => ({ self with handshake := none }, none)

end Acts

/-! ### The packets -/

section Packets

variable (crypto : NoiseCrypto)

/-- The nonce after one more use, and the rotation of the key at 1000 uses. -/
def Noise.rotate (noise : Noise) : Noise :=
  if noise.nonce + 1 = 1000 then
    { key := (crypto.hkdf noise.ck (some noise.key)).2
      nonce := 0
      ck := (crypto.hkdf noise.ck (some noise.key)).1 }
  else { noise with nonce := noise.nonce + 1 }

/-- The bytes of `l`, the low one first: the length of the message with its bytes
swapped. -/
def lengthBytes (len : UInt32) : Bytes :=
  let l : UInt16 := ((len >>> 8) ||| (len <<< 8)).toUInt16
  [l.toUInt8, (l >>> 8).toUInt8]

/-- `ln_enc_auth_enc`. -/
def lnEncAuthEnc (noise : Noise) (msg : Bytes) : Noise × Option Bytes :=
  let cl := crypto.encrypt noise.key noise.nonce [] (lengthBytes msg.length.toUInt32)
  let noise := { noise with nonce := noise.nonce + 1 }
  if noise.nonce = 1000 then (noise, none)
  else
    let cm := crypto.encrypt noise.key noise.nonce [] msg
    (noise.rotate crypto, some (cl ++ cm))

/-- `ln_enc_auth_dec_len`: the length of what follows, 0 where it fails. -/
def lnEncAuthDecLen (noise : Noise) (data : Bytes) : Noise × UInt16 :=
  if data.length ≠ lnSzNoiseHeader then (noise, 0)
  else
    match crypto.decrypt noise.key noise.nonce [] data with
    | none => (noise, 0)
    | some pl =>
        let noise := { noise with nonce := noise.nonce + 1 }
        if noise.nonce = 1000 then (noise, 0)
        else
          (noise,
            (((pl.getD 0 0).toUInt16 <<< 8) ||| (pl.getD 1 0).toUInt16) + chachapolyMac.toUInt16)

/-- What `ln_enc_auth_dec_msg` comes to: it fails, it reads past the end of the buffer,
or it gives the message. -/
inductive DecMsg
  | failed
  | overrun
  | plain (msg : Bytes)
deriving DecidableEq, Repr

/-- `ln_enc_auth_dec_msg`.  The 16 bits of `l` wrap for a buffer without room for a tag. -/
def lnEncAuthDecMsg (noise : Noise) (buf : Bytes) : Noise × DecMsg :=
  if buf.length < chachapolyMac then (noise, .overrun)
  else
    match crypto.decrypt noise.key noise.nonce [] buf with
    | none => (noise, .failed)
    | some msg => (noise.rotate crypto, .plain msg)

end Packets

end Ptarmigan
