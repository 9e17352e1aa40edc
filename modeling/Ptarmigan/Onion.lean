/-
Onion packets and onion failures (`ln_onion`): the packet a payer wraps for a route,
what a hop peels off it, and the failure packet that a hop makes, the hops before it
wrap, and the payer reads.
-/
import Ptarmigan.Library.BigEndian
import Ptarmigan.Library.KeyStream
import Ptarmigan.Tx

namespace Ptarmigan

open KeyStream

/-- The primitives that the onion layer calls.  The lengths are those of the buffers
they write. -/
structure OnionCrypto where
  /-- `btc_util_sha256`. -/
  sha256 : Bytes → Bytes
  /-- `ln_misc_calc_mac`: HMAC-SHA256 of a key and a message. -/
  calcMac : Bytes → Bytes → Bytes
  /-- `mbedtls_chacha20_crypt` of zeros, by position. -/
  stream : Bytes → Nat → UInt8
  /-- `btc_keys_priv2pub`. -/
  priv2pub : Bytes → Bytes
  /-- `btc_util_mul_pubkey`. -/
  mulPubkey : Bytes → Bytes → Bytes
  /-- `btc_keys_chkpub`. -/
  chkpub : Bytes → Bool
  length_calcMac : ∀ key msg, (calcMac key msg).length = 32
  length_priv2pub : ∀ priv, (priv2pub priv).length = 33
  length_mulPubkey : ∀ pub factor, (mulPubkey pub factor).length = 33

/-- Sums in place of the primitives, to evaluate the model with: a private key and its
public key stand for one number, and the product of keys for the sum of theirs. -/
def OnionCrypto.additive : OnionCrypto where
  sha256 := id
  calcMac key msg := List.replicate 32 ((key ++ msg).foldl (· + ·) 1)
  stream key pos := key.foldl (· + ·) pos.toUInt8
  priv2pub priv := 0x02 :: BigEndian.encode 32 (BigEndian.decode priv)
  mulPubkey pub factor :=
    0x02 :: BigEndian.encode 32 (BigEndian.decode (pub.drop 1) + BigEndian.decode factor)
  chkpub pub := pub.length == 33 && pub.head? == some 0x02
  length_calcMac _ _ := List.length_replicate
  length_priv2pub _ := by simp
  length_mulPubkey _ _ := by simp

/-- `ln_misc_generate_shared_secret` and `ln_node_generate_shared_secret`. -/
def OnionCrypto.sharedSecret (crypto : OnionCrypto) (pub priv : Bytes) : Bytes :=
  crypto.sha256 (crypto.mulPubkey pub priv)

/-- `compute_blinding_factor`. -/
def OnionCrypto.blindingFactor (crypto : OnionCrypto) (pub secret : Bytes) : Bytes :=
  crypto.sha256 (pub ++ secret)

/-- `generate_key`. -/
def OnionCrypto.generateKey (crypto : OnionCrypto) (keyStr secret : Bytes) : Bytes :=
  crypto.calcMac keyStr secret

/-- `RHO`. -/
def rho : Bytes := [0x72, 0x68, 0x6f]

/-- `MU`. -/
def mu : Bytes := [0x6d, 0x75]

/-- `UM`. -/
def um : Bytes := [0x75, 0x6d]

/-- `AMMAG`. -/
def ammag : Bytes := [0x61, 0x6d, 0x6d, 0x61, 0x67]

/-- `LN_HOP_MAX`. -/
def lnHopMax : Nat := 20

/-- `M_SZ_HMAC`. -/
def szHmac : Nat := 32

/-- `M_SZ_HOP_DATA`. -/
def szHopData : Nat := 65

/-- `M_SZ_ROUTING_INFO`. -/
def szRoutingInfo : Nat := 1300

/-- `M_SZ_STREAM_BYTES`. -/
def szStreamBytes : Nat := 1365

/-- `BTC_SZ_PUBKEY`. -/
def szPubkey : Nat := 33

/-- `LN_SZ_ONION_ROUTE`. -/
def lnSzOnionRoute : Nat := 1366

/-! ### Making a packet -/

/-- `ln_hop_datain_t`. -/
structure LnHopDatain where
  shortChannelId : UInt64
  amtToForward : UInt64
  outgoingCltvValue : UInt32
  pubkey : Bytes
deriving DecidableEq, Repr

/-- What the payer shares with a hop: the ephemeral key the hop gets, and the secret. -/
structure HopKeys where
  ephPubkey : Bytes
  sharedSecret : Bytes
deriving DecidableEq, Repr

/-- The loop of `ln_onion_create_packet` over `eph_pubkeys`, `shd_secrets` and
`blind_factors`.  With no factor yet, `multi_scalar_mul` and SHA256 make what
`ln_misc_generate_shared_secret` makes for the first hop. -/
def hopKeys (crypto : OnionCrypto) (sessionKey : Bytes) :
    List Bytes → Bytes → List Bytes → List HopKeys
  | [], _, _ => []
  | pubkey :: rest, ephPubkey, blindFactors =>
      let yToX := crypto.mulPubkey pubkey sessionKey
      let secret := crypto.sha256 (blindFactors.foldl crypto.mulPubkey yToX)
      let factor := crypto.blindingFactor ephPubkey secret
      ⟨ephPubkey, secret⟩ ::
        hopKeys crypto sessionKey rest (crypto.mulPubkey ephPubkey factor)
          (blindFactors ++ [factor])

/-- `generate_header_padding`: the filler, of `szHopData` bytes for each hop but one. -/
def generateHeaderPadding (crypto : OnionCrypto) (keyStr : Bytes) (secrets : List Bytes) : Bytes :=
  let size := szHopData * (secrets.length - 1)
  (List.range' 1 (secrets.length - 1)).foldl
    (fun result lp =>
      let sz := (lnHopMax - lp + 1) * szHopData
      let streamKey := crypto.generateKey keyStr (secrets.getD (lp - 1) [])
      let streamBytes := bytes (crypto.stream streamKey) 0 szStreamBytes
      let len := min size (szHopData * lp)
      xorBytes (result.take len) ((streamBytes.drop sz).take len) ++ result.drop len)
    (List.replicate size 0)

/-- The hop data that a hop finds in front of its routing information. -/
def hopHeader (hop : LnHopDatain) (nextHmac : Bytes) : Bytes :=
  [0x00] ++ BigEndian.encode 8 hop.shortChannelId.toNat ++
    BigEndian.encode 8 hop.amtToForward.toNat ++
    BigEndian.encode 4 hop.outgoingCltvValue.toNat ++ List.replicate 12 0 ++ nextHmac

/-- `mix_header` and `next_hmac`. -/
structure OnionMix where
  header : Bytes
  hmac : Bytes
deriving DecidableEq, Repr

/-- The loop of `ln_onion_create_packet` that wraps the hops, the last one first.
`right_shift` and the hop data written over it are one step. -/
def mixHops (crypto : OnionCrypto) (assoc filler : Bytes) :
    List (LnHopDatain × Bytes) → OnionMix
  | [] => ⟨List.replicate szRoutingInfo 0, List.replicate szHmac 0⟩
  | (hop, secret) :: rest =>
      let next := mixHops crypto assoc filler rest
      let rhoKey := crypto.generateKey rho secret
      let muKey := crypto.generateKey mu secret
      let plain := hopHeader hop next.hmac ++ next.header.take (szRoutingInfo - szHopData)
      let mixed := xorBytes plain (bytes (crypto.stream rhoKey) 0 szRoutingInfo)
      let header :=
        if rest.isEmpty then mixed.take (szRoutingInfo - filler.length) ++ filler else mixed
      ⟨header, crypto.calcMac muKey (header ++ assoc)⟩

/-- A packet: version, ephemeral key, routing information, HMAC. -/
def onionPacket (ephPubkey : Bytes) (mix : OnionMix) : Bytes :=
  [0x00] ++ ephPubkey ++ mix.header ++ mix.hmac

/-- What `ln_onion_create_packet` comes to: it refuses the route, it writes past the
end of a buffer, or it makes the packet and the shared secrets. -/
inductive OnionCreated
  | refused
  | overrun
  | made (packet : Bytes) (secrets : List Bytes)
deriving DecidableEq, Repr

/-- `ln_onion_create_packet`.  The packet buffer, of `lnSzOnionRoute` bytes, holds the
routing information and the associated data for the HMAC.  Without hops the buffers of
the keys have no room for the first ones. -/
def lnOnionCreatePacket (crypto : OnionCrypto) (hops : List LnHopDatain)
    (sessionKey assoc : Bytes) : OnionCreated :=
  if lnHopMax < hops.length then .refused
  else if hops.isEmpty then .overrun
  else if lnSzOnionRoute < szRoutingInfo + assoc.length then .overrun
  else
    let keys := hopKeys crypto sessionKey (hops.map LnHopDatain.pubkey)
      (crypto.priv2pub sessionKey) []
    let secrets := keys.map HopKeys.sharedSecret
    let filler := generateHeaderPadding crypto rho secrets
    .made
      (onionPacket (crypto.priv2pub sessionKey) (mixHops crypto assoc filler (hops.zip secrets)))
      secrets

/-! ### Peeling a packet -/

/-- `ln_hop_dataout_t`. -/
structure LnHopDataout where
  bExit : Bool
  shortChannelId : UInt64
  amtToForward : UInt64
  outgoingCltvValue : UInt32
deriving DecidableEq, Repr

/-- `LNONION_INV_REALM`. -/
def lnonionInvRealm : UInt16 := 0x4001

/-- `LNONION_INV_ONION_VERSION`. -/
def lnonionInvOnionVersion : UInt16 := 0xc004

/-- `LNONION_INV_ONION_HMAC`. -/
def lnonionInvOnionHmac : UInt16 := 0xc005

/-- `LNONION_INV_ONION_KEY`. -/
def lnonionInvOnionKey : UInt16 := 0xc006

/-- `set_reason_sha256`. -/
def setReasonSha256 (crypto : OnionCrypto) (packet : Bytes) (code : UInt16) : Bytes :=
  BigEndian.encode 2 code.toNat ++ crypto.sha256 (packet.take lnSzOnionRoute)

/-- What `ln_onion_read_packet` leaves: the shared secret, if it came that far, and the
reason to fail with, or the next packet and the hop data. -/
structure OnionPeel where
  sharedSecret : Option Bytes
  result : Except Bytes (Bytes × LnHopDataout)

/-- The end of `ln_onion_read_packet`, of the routing information of a packet with a
good HMAC. -/
def peelRoute (crypto : OnionCrypto) (version : UInt8) (dhkey secret route : Bytes) :
    Except Bytes (Bytes × LnHopDataout) :=
  let stream := bytes (crypto.stream (crypto.generateKey rho secret)) 0 szStreamBytes
  let plain := xorBytes route (stream.take szRoutingInfo) ++ stream.drop szRoutingInfo
  if plain.headD 0 ≠ 0x00 then .error (BigEndian.encode 2 lnonionInvRealm.toNat)
  else
    let ephPubkey := crypto.mulPubkey dhkey (crypto.blindingFactor dhkey secret)
    let hmac := (plain.drop (szHopData - szHmac)).take szHmac
    .ok
      ([version] ++ ephPubkey ++ (plain.drop szHopData).take szRoutingInfo ++ hmac,
        { bExit := hmac.all (· == 0)
          shortChannelId := (BigEndian.decode ((plain.drop 1).take 8)).toUInt64
          amtToForward := (BigEndian.decode ((plain.drop 9).take 8)).toUInt64
          outgoingCltvValue := (BigEndian.decode ((plain.drop 17).take 4)).toUInt32 })

/-- `ln_onion_read_packet`, by the node with the given private key. -/
def lnOnionReadPacket (crypto : OnionCrypto) (priv packet assoc : Bytes) : OnionPeel :=
  let version := packet.headD 0
  let dhkey := (packet.drop 1).take szPubkey
  let route := (packet.drop (1 + szPubkey)).take szRoutingInfo
  let hmac := (packet.drop (1 + szPubkey + szRoutingInfo)).take szHmac
  if version ≠ 0x00 then ⟨none, .error (setReasonSha256 crypto packet lnonionInvOnionVersion)⟩
  else if !crypto.chkpub dhkey then
    ⟨none, .error (setReasonSha256 crypto packet lnonionInvOnionKey)⟩
  else
    let secret := crypto.sharedSecret dhkey priv
    if crypto.calcMac (crypto.generateKey mu secret) (route ++ assoc) ≠ hmac then
      ⟨some secret, .error (setReasonSha256 crypto packet lnonionInvOnionHmac)⟩
    else ⟨some secret, peelRoute crypto version dhkey secret route⟩

/-! ### Failures -/

/-- `DATALEN`: the reason of a failure and its padding together. -/
def failureDatalen : Nat := 256

/-- `ln_onion_failure_forward`. -/
def lnOnionFailureForward (crypto : OnionCrypto) (secret packet : Bytes) : Bytes :=
  xorBytes packet
    (bytes (crypto.stream (crypto.generateKey ammag secret)) 0 packet.length)

/-- The part of a failure packet that its HMAC covers. -/
def failureBody (reason : Bytes) : Bytes :=
  BigEndian.encode 2 reason.length ++ reason ++
    BigEndian.encode 2 (failureDatalen - reason.length) ++
    List.replicate (failureDatalen - reason.length) 0

/-- `ln_onion_failure_create`; `none` where the size of the padding is negative. -/
def lnOnionFailureCreate (crypto : OnionCrypto) (secret reason : Bytes) : Option Bytes :=
  if failureDatalen < reason.length then none
  else
    let body := failureBody reason
    some (lnOnionFailureForward crypto secret
      (crypto.calcMac (crypto.generateKey um secret) body ++ body))

/-- `ln_misc_get16be` at a position; `none` past the end of the packet. -/
def get16be (packet : Bytes) (pos : Nat) : Option Nat :=
  if pos + 2 ≤ packet.length then some (BigEndian.decode ((packet.drop pos).take 2)) else none

/-- The checks of `ln_onion_failure_read` before the HMAC: the reason, if the lengths
and the padding are those of a failure message.  The outer `none` is a read past the
end of the packet. -/
def failureReason (packet : Bytes) : Option (Option Bytes) :=
  (get16be packet szHmac).bind fun len =>
    if len < failureDatalen then
      (get16be packet (szHmac + 2 + len)).bind fun padLen =>
        if len + padLen = failureDatalen then
          if ((packet.drop (szHmac + 4 + len)).take padLen).all (· == 0) then
            if packet.length < szHmac + 4 + failureDatalen then none
            else some (some ((packet.drop (szHmac + 2)).take len))
          else some none
        else some none
    else some none

/-- The HMAC of an unwrapped failure packet. -/
def failureHmacMatches (crypto : OnionCrypto) (secret packet : Bytes) : Bool :=
  packet.take szHmac == crypto.calcMac (crypto.generateKey um secret) (packet.drop szHmac)

/-- The loop of `ln_onion_failure_read`: a layer whose lengths and padding fit ends it,
whatever its HMAC says.  The outer `none` is a read past the end of the packet. -/
def failureReadLoop (crypto : OnionCrypto) :
    List Bytes → Nat → Bytes → Option (Option (Bytes × Nat))
  | [], _, _ => some none
  | secret :: rest, hop, packet =>
      let out := lnOnionFailureForward crypto secret packet
      (failureReason out).bind fun reason =>
        match reason with
        | some reason =>
            some (if failureHmacMatches crypto secret out then some (reason, hop) else none)
        | none => failureReadLoop crypto rest (hop + 1) out

/-- `ln_onion_failure_read`: the reason and the hop it comes from. -/
def lnOnionFailureRead (crypto : OnionCrypto) (secrets : List Bytes) (packet : Bytes) :
    Option (Option (Bytes × Nat)) :=
  failureReadLoop crypto secrets 0 packet

end Ptarmigan
