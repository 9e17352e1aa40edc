/-
A payment on its way: each hop of a route peels the packet that the hop before it, or
the payer, hands on.  The payer precomputes the bytes that the shifts of the hops bring
in at the end, so that every packet is the one whose HMAC was made.
-/
import Ptarmigan.Onion

namespace Ptarmigan

open KeyStream

variable {crypto : OnionCrypto}

/-- The key stream that a hop's routing information is mixed with. -/
def OnionCrypto.routeStream (crypto : OnionCrypto) (secret : Bytes) : Nat → UInt8 :=
  crypto.stream (crypto.generateKey rho secret)

/-! ### The filler -/

/-- What the hops with the given secrets leave at the end of the routing information. -/
def fillerAfter (crypto : OnionCrypto) (secrets : List Bytes) : Bytes :=
  secrets.foldl
    (fun filler secret =>
      xorBytes (filler ++ List.replicate szHopData 0)
        (bytes (crypto.routeStream secret) (szRoutingInfo - filler.length)
          (filler.length + szHopData)))
    []

theorem fillerAfter_snoc (secrets : List Bytes) (secret : Bytes) :
    fillerAfter crypto (secrets ++ [secret]) =
      xorBytes (fillerAfter crypto secrets ++ List.replicate szHopData 0)
        (bytes (crypto.routeStream secret) (szRoutingInfo - (fillerAfter crypto secrets).length)
          ((fillerAfter crypto secrets).length + szHopData)) := by
  rw [fillerAfter, List.foldl_append]
  rfl

theorem length_fillerAfter (secrets : List Bytes) :
    (fillerAfter crypto secrets).length = szHopData * secrets.length := by
  induction secrets using List.reverseRecOn with
  | nil => rfl
  | append_singleton secrets secret ih =>
      rw [fillerAfter_snoc]
      simp only [length_xorBytes, List.length_append, List.length_replicate, length_bytes,
        List.length_singleton, ih]
      rw [Nat.min_self, Nat.mul_succ]

/-- The bytes that a hop shifts in are those at the end of its key stream. -/
theorem drop_fillerAfter_snoc (secrets : List Bytes) (secret : Bytes)
    (hfits : szHopData * secrets.length ≤ szRoutingInfo) :
    (fillerAfter crypto (secrets ++ [secret])).drop (szHopData * secrets.length) =
      bytes (crypto.routeStream secret) szRoutingInfo szHopData := by
  have hlength := @length_fillerAfter crypto secrets
  have hstart : szRoutingInfo - szHopData * secrets.length + szHopData * secrets.length =
      szRoutingInfo := Nat.sub_add_cancel hfits
  rw [fillerAfter_snoc, drop_xorBytes, ← hlength, List.drop_left, drop_bytes, hlength, hstart,
    Nat.add_sub_cancel_left, xorBytes_zeros (length_bytes _ _ _)]

theorem take_fillerAfter_snoc (secrets : List Bytes) (secret : Bytes) :
    (fillerAfter crypto (secrets ++ [secret])).take (szHopData * secrets.length) =
      xorBytes (fillerAfter crypto secrets)
        (bytes (crypto.routeStream secret) (szRoutingInfo - szHopData * secrets.length)
          (szHopData * secrets.length)) := by
  have hlength := @length_fillerAfter crypto secrets
  rw [fillerAfter_snoc, take_xorBytes, ← hlength, List.take_left, take_bytes,
    Nat.min_eq_left (Nat.le_add_right _ _)]

/-- The loop of `generate_header_padding` after some iterations. -/
theorem headerPadding_loop {secrets : List Bytes} (hlength : secrets.length ≤ lnHopMax)
    {count : Nat}
    (hcount : count ≤ secrets.length - 1) :
    (List.range' 1 count).foldl
      (fun result lp =>
        let sz := (lnHopMax - lp + 1) * szHopData
        let streamKey := crypto.generateKey rho (secrets.getD (lp - 1) [])
        let streamBytes := bytes (crypto.stream streamKey) 0 szStreamBytes
        let len := min (szHopData * (secrets.length - 1)) (szHopData * lp)
        xorBytes (result.take len) ((streamBytes.drop sz).take len) ++ result.drop len)
      (List.replicate (szHopData * (secrets.length - 1)) 0) =
    fillerAfter crypto (secrets.take count) ++
      List.replicate (szHopData * (secrets.length - 1 - count)) 0 := by
  induction count with
  | zero => simp [fillerAfter]
  | succ count ih =>
      rw [lnHopMax] at hlength
      have hlt : count < secrets.length := by omega
      have hfiller : (fillerAfter crypto (secrets.take count)).length = szHopData * count := by
        rw [length_fillerAfter, List.length_take, Nat.min_eq_left hlt.le]
      have hrest : szHopData * (secrets.length - 1 - count) =
          szHopData + szHopData * (secrets.length - 1 - (count + 1)) := by
        rw [szHopData]
        omega
      have hlen : min (szHopData * (secrets.length - 1)) (szHopData * (1 + count)) =
          (fillerAfter crypto (secrets.take count) ++
            List.replicate szHopData (0 : UInt8)).length := by
        rw [List.length_append, hfiller, List.length_replicate, szHopData]
        omega
      have hstart : (lnHopMax - (1 + count) + 1) * szHopData =
          szRoutingInfo - szHopData * count := by
        rw [lnHopMax, szHopData, szRoutingInfo]
        omega
      have hroom : szHopData * count + szHopData ≤
          szStreamBytes - (szRoutingInfo - szHopData * count) := by
        rw [szHopData, szStreamBytes, szRoutingInfo]
        omega
      have hsecret : secrets.getD (1 + count - 1) [] = secrets[count] := by
        rw [Nat.add_sub_cancel_left, List.getD_eq_getElem?_getD, List.getElem?_eq_getElem hlt,
          Option.getD_some]
      rw [List.range'_1_concat, List.foldl_append, ih (by omega), List.foldl_cons, List.foldl_nil,
        hrest, List.replicate_add, ← List.append_assoc, ← List.take_concat_get' _ _ hlt,
        fillerAfter_snoc]
      dsimp only
      rw [hlen, List.take_left, List.drop_left, hstart, hsecret, drop_bytes, take_bytes,
        Nat.zero_add, List.length_append, hfiller, List.length_replicate, Nat.min_eq_left hroom]
      rfl

theorem generateHeaderPadding_eq {secrets : List Bytes} (hlength : secrets.length ≤ lnHopMax) :
    generateHeaderPadding crypto rho secrets = fillerAfter crypto secrets.dropLast := by
  rw [generateHeaderPadding]
  refine (headerPadding_loop hlength (Nat.le_refl _)).trans ?_
  rw [Nat.sub_self, Nat.mul_zero, List.replicate_zero, List.append_nil, List.dropLast_eq_take]

/-! ### The routing information -/

/-- The sender's loop over the hops that it shares these secrets with. -/
def mixFrom (crypto : OnionCrypto) (assoc filler : Bytes) (hops : List (LnHopDatain × Bytes)) :
    Bytes :=
  (mixHops crypto assoc filler hops).header

theorem length_mixHops_hmac (assoc filler : Bytes) (hops : List (LnHopDatain × Bytes)) :
    (mixHops crypto assoc filler hops).hmac.length = szHmac := by
  cases hops with
  | nil => exact List.length_replicate
  | cons hop rest => exact crypto.length_calcMac _ _

theorem length_hopHeader (hop : LnHopDatain) {nextHmac : Bytes}
    (hnext : nextHmac.length = szHmac) : (hopHeader hop nextHmac).length = szHopData := by
  simp [hopHeader, hnext, szHmac, szHopData]

theorem length_mixFrom {assoc filler : Bytes} (hfiller : filler.length ≤ szRoutingInfo)
    (hops : List (LnHopDatain × Bytes)) :
    (mixFrom crypto assoc filler hops).length = szRoutingInfo := by
  induction hops with
  | nil => exact List.length_replicate
  | cons hop rest ih =>
      rw [mixFrom] at ih
      have hheader := length_hopHeader hop.1 (@length_mixHops_hmac crypto assoc filler rest)
      have hmixed : (xorBytes (hopHeader hop.1 (mixHops crypto assoc filler rest).hmac ++
          (mixHops crypto assoc filler rest).header.take (szRoutingInfo - szHopData))
          (bytes (crypto.routeStream hop.2) 0 szRoutingInfo)).length = szRoutingInfo := by
        simp only [length_xorBytes, List.length_append, hheader, List.length_take, ih, length_bytes]
        rw [szHopData, szRoutingInfo]
        omega
      rw [mixFrom, mixHops]
      dsimp only
      split
      · rw [List.length_append, List.length_take]
        exact (congrArg (fun length => min _ length + _) hmixed).trans (by omega)
      · exact hmixed

/-- Before its last hop the sender only shifts and mixes. -/
theorem mixFrom_cons (assoc filler : Bytes) (hop : LnHopDatain × Bytes)
    {rest : List (LnHopDatain × Bytes)} (hrest : rest ≠ []) :
    mixFrom crypto assoc filler (hop :: rest) =
      xorBytes (hopHeader hop.1 (mixHops crypto assoc filler rest).hmac ++
          (mixFrom crypto assoc filler rest).take (szRoutingInfo - szHopData))
        (bytes (crypto.routeStream hop.2) 0 szRoutingInfo) := by
  have hnot : rest.isEmpty = false := List.isEmpty_eq_false_iff.mpr hrest
  rw [mixFrom, mixHops, hnot]
  rfl

theorem mixFrom_last (assoc filler : Bytes) (hop : LnHopDatain × Bytes) :
    mixFrom crypto assoc filler [hop] =
      (xorBytes (hopHeader hop.1 (List.replicate szHmac 0) ++
          (List.replicate szRoutingInfo 0).take (szRoutingInfo - szHopData))
        (bytes (crypto.routeStream hop.2) 0 szRoutingInfo)).take
          (szRoutingInfo - filler.length) ++ filler :=
  rfl

/-- With the filler of all hops but the last, every packet ends in the filler of the
hops before it. -/
theorem drop_mixFrom {assoc : Bytes} {before : List Bytes} {hops : List (LnHopDatain × Bytes)}
    (hhops : hops ≠ []) (hlength : before.length + hops.length ≤ lnHopMax) :
    (mixFrom crypto assoc
        (fillerAfter crypto (before ++ (hops.map Prod.snd).dropLast)) hops).drop
          (szRoutingInfo - szHopData * before.length) =
      fillerAfter crypto before := by
  induction hops generalizing before with
  | nil => exact absurd rfl hhops
  | cons hop rest ih =>
      rw [lnHopMax, List.length_cons] at hlength
      have hbefore : szHopData * before.length + szHopData ≤ szRoutingInfo := by
        rw [szHopData, szRoutingInfo]
        omega
      by_cases hrest : rest = []
      · subst hrest
        rw [List.map_singleton, List.dropLast_singleton, List.append_nil, mixFrom_last]
        refine List.drop_left' ?_
        simp only [List.length_take, length_xorBytes, List.length_append, length_bytes,
          List.length_replicate, length_fillerAfter,
          length_hopHeader hop.1 (List.length_replicate (n := szHmac) (a := (0 : UInt8)))]
        omega
      · have hsecrets : before ++ ((hop :: rest).map Prod.snd).dropLast =
            (before ++ [hop.2]) ++ (rest.map Prod.snd).dropLast := by
          rw [List.map_cons, List.dropLast_cons_of_ne_nil (by simpa using hrest), List.append_assoc,
            List.singleton_append]
        have htail := @ih (before ++ [hop.2]) hrest (by
          rw [List.length_append, List.length_singleton, lnHopMax]
          omega)
        rw [hsecrets, mixFrom_cons _ _ _ hrest, drop_xorBytes, drop_bytes, Nat.zero_add]
        generalize hmix : mixFrom crypto assoc
          (fillerAfter crypto ((before ++ [hop.2]) ++ (rest.map Prod.snd).dropLast)) rest = mix
          at htail
        -- what the next packet ends in, without the bytes that the shift drops
        have hshift : (hopHeader hop.1 (mixHops crypto assoc
              (fillerAfter crypto ((before ++ [hop.2]) ++ (rest.map Prod.snd).dropLast))
              rest).hmac ++ mix.take (szRoutingInfo - szHopData)).drop
              (szRoutingInfo - szHopData * before.length) =
            (fillerAfter crypto (before ++ [hop.2])).take (szHopData * before.length) := by
          have hheader := length_hopHeader hop.1 (@length_mixHops_hmac crypto assoc
            (fillerAfter crypto ((before ++ [hop.2]) ++ (rest.map Prod.snd).dropLast)) rest)
          rw [← htail, List.drop_append, List.drop_eq_nil_of_le (by rw [hheader]; omega),
            List.nil_append, hheader, List.drop_take, List.length_append, List.length_singleton]
          congr 2
          omega
        rw [hshift, take_fillerAfter_snoc]
        have hwhole : szRoutingInfo - (szRoutingInfo - szHopData * before.length) =
            szHopData * before.length := by omega
        rw [hwhole]
        exact xorBytes_cancel (by simp [length_fillerAfter])

/-! ### One hop -/

theorem hopHeader_append (hop : LnHopDatain) (nextHmac tail : Bytes) :
    hopHeader hop nextHmac ++ tail =
      0x00 :: (BigEndian.encode 8 hop.shortChannelId.toNat ++
        (BigEndian.encode 8 hop.amtToForward.toNat ++
          (BigEndian.encode 4 hop.outgoingCltvValue.toNat ++
            (List.replicate 12 0 ++ (nextHmac ++ tail))))) := by
  simp [hopHeader]

/-- The hop data in front of the routing information is read back. -/
theorem peelRoute_plain {version : UInt8} {dhkey secret route nextHmac tail : Bytes}
    {hop : LnHopDatain} (hhmac : nextHmac.length = szHmac) (htail : tail.length = szRoutingInfo)
    (hplain : xorBytes route (bytes (crypto.routeStream secret) 0 szRoutingInfo) ++
        bytes (crypto.routeStream secret) szRoutingInfo szHopData =
      hopHeader hop nextHmac ++ tail) :
    peelRoute crypto version dhkey secret route =
      .ok
        ([version] ++ crypto.mulPubkey dhkey (crypto.blindingFactor dhkey secret) ++ tail ++
            nextHmac,
          ⟨nextHmac.all (· == 0), hop.shortChannelId, hop.amtToForward,
            hop.outgoingCltvValue⟩) := by
  have htake : (bytes (crypto.routeStream secret) 0 szStreamBytes).take szRoutingInfo =
      bytes (crypto.routeStream secret) 0 szRoutingInfo := by
    rw [take_bytes]
    rfl
  have hdrop : (bytes (crypto.routeStream secret) 0 szStreamBytes).drop szRoutingInfo =
      bytes (crypto.routeStream secret) szRoutingInfo szHopData := by
    rw [drop_bytes]
    rfl
  have hscid : hop.shortChannelId.toNat < 256 ^ 8 := hop.shortChannelId.toNat_lt
  have hamt : hop.amtToForward.toNat < 256 ^ 8 := hop.amtToForward.toNat_lt
  have hcltv : hop.outgoingCltvValue.toNat < 256 ^ 4 := hop.outgoingCltvValue.toNat_lt
  rw [szHmac] at hhmac
  rw [szRoutingInfo] at htail
  rw [peelRoute, ← OnionCrypto.routeStream, htake, hdrop, hplain, hopHeader_append]
  simp [szHopData, szHmac, szRoutingInfo, List.drop_append, hhmac, htail,
    List.drop_eq_nil_of_le, List.take_of_length_le]
  rw [BigEndian.decode_encode hscid, BigEndian.decode_encode hamt, BigEndian.decode_encode hcltv]
  exact ⟨UInt64.ofNat_toNat, UInt64.ofNat_toNat, UInt32.ofNat_toNat⟩

/-- What a hop that is not the last finds under its key stream. -/
theorem plain_of_forward {assoc filler : Bytes} {hop : LnHopDatain × Bytes}
    {rest : List (LnHopDatain × Bytes)} (hrest : rest ≠ [])
    (hfiller : filler.length ≤ szRoutingInfo)
    (htail : (mixFrom crypto assoc filler rest).drop (szRoutingInfo - szHopData) =
      bytes (crypto.routeStream hop.2) szRoutingInfo szHopData) :
    xorBytes (mixFrom crypto assoc filler (hop :: rest))
        (bytes (crypto.routeStream hop.2) 0 szRoutingInfo) ++
        bytes (crypto.routeStream hop.2) szRoutingInfo szHopData =
      hopHeader hop.1 (mixHops crypto assoc filler rest).hmac ++
        mixFrom crypto assoc filler rest := by
  have hheader := length_hopHeader hop.1 (@length_mixHops_hmac crypto assoc filler rest)
  have hlength : (hopHeader hop.1 (mixHops crypto assoc filler rest).hmac ++
      (mixFrom crypto assoc filler rest).take (szRoutingInfo - szHopData)).length ≤
      (bytes (crypto.routeStream hop.2) 0 szRoutingInfo).length := by
    rw [List.length_append, hheader, List.length_take, length_mixFrom hfiller, length_bytes,
      szHopData, szRoutingInfo]
    omega
  rw [mixFrom_cons _ _ _ hrest, xorBytes_cancel hlength, ← htail, List.append_assoc,
    List.take_append_drop]

/-- What the last hop finds under its key stream. -/
theorem plain_of_last {assoc filler : Bytes} {hop : LnHopDatain × Bytes}
    (hfiller : filler.length ≤ szRoutingInfo - szHopData) :
    ∃ tail, tail.length = szRoutingInfo ∧
      xorBytes (mixFrom crypto assoc filler [hop])
          (bytes (crypto.routeStream hop.2) 0 szRoutingInfo) ++
          bytes (crypto.routeStream hop.2) szRoutingInfo szHopData =
        hopHeader hop.1 (List.replicate szHmac 0) ++ tail := by
  have hheader : (hopHeader hop.1 (List.replicate szHmac 0)).length = szHopData :=
    length_hopHeader hop.1 List.length_replicate
  have hroom : szHopData ≤ szRoutingInfo - filler.length := by
    rw [szHopData, szRoutingInfo] at *
    omega
  -- the filler is written behind the hop data
  have hfront : (xorBytes (mixFrom crypto assoc filler [hop])
      (bytes (crypto.routeStream hop.2) 0 szRoutingInfo)).take szHopData =
      hopHeader hop.1 (List.replicate szHmac 0) := by
    have hmixed : szHopData ≤ ((xorBytes (hopHeader hop.1 (List.replicate szHmac 0) ++
        (List.replicate szRoutingInfo 0).take (szRoutingInfo - szHopData))
        (bytes (crypto.routeStream hop.2) 0 szRoutingInfo)).take
          (szRoutingInfo - filler.length)).length := by
      simp only [List.length_take, length_xorBytes, List.length_append, hheader,
        List.length_replicate, length_bytes]
      rw [szHopData, szRoutingInfo] at *
      omega
    rw [mixFrom_last, take_xorBytes, List.take_append_of_le_length hmixed, List.take_take,
      Nat.min_eq_left hroom, take_xorBytes, List.take_append_of_le_length hheader.ge,
      List.take_of_length_le hheader.le]
    refine xorBytes_cancel ?_
    rw [hheader, take_bytes, length_bytes]
    decide
  refine ⟨(xorBytes (mixFrom crypto assoc filler [hop])
      (bytes (crypto.routeStream hop.2) 0 szRoutingInfo)).drop szHopData ++
      bytes (crypto.routeStream hop.2) szRoutingInfo szHopData, ?_, ?_⟩
  · have hmix := @length_mixFrom crypto assoc filler
      (hfiller.trans (Nat.sub_le _ _)) [hop]
    rw [List.length_append, List.length_drop, length_xorBytes, hmix, length_bytes, length_bytes]
    decide
  · rw [← hfront, ← List.append_assoc, List.take_append_drop]

/-! ### Reading and refusing -/

/-- The parts of a packet behind its version. -/
structure PacketParts (ephPubkey route hmac : Bytes) : Prop where
  ephPubkey : ephPubkey.length = szPubkey
  route : route.length = szRoutingInfo
  hmac : hmac.length = szHmac

section Read

variable {version : UInt8} {ephPubkey route hmac priv assoc : Bytes}

theorem PacketParts.key_eq (hparts : PacketParts ephPubkey route hmac) :
    (([version] ++ ephPubkey ++ route ++ hmac).drop 1).take szPubkey = ephPubkey := by
  rw [List.append_assoc, List.append_assoc]
  exact List.take_left' hparts.ephPubkey

theorem PacketParts.route_eq (hparts : PacketParts ephPubkey route hmac) :
    (([version] ++ ephPubkey ++ route ++ hmac).drop (1 + szPubkey)).take szRoutingInfo =
      route := by
  rw [List.append_assoc, List.drop_left' (by simp [hparts.ephPubkey, Nat.add_comm])]
  exact List.take_left' hparts.route

theorem PacketParts.hmac_eq (hparts : PacketParts ephPubkey route hmac) :
    (([version] ++ ephPubkey ++ route ++ hmac).drop (1 + szPubkey + szRoutingInfo)).take szHmac =
      hmac := by
  have hfront : ([version] ++ ephPubkey ++ route).length = 1 + szPubkey + szRoutingInfo := by
    simp only [List.length_append, List.length_singleton, hparts.ephPubkey, hparts.route]
  rw [List.drop_left' hfront]
  exact List.take_of_length_le hparts.hmac.le

theorem read_parts (hparts : PacketParts ephPubkey route hmac) :
    (lnOnionReadPacket crypto priv ([version] ++ ephPubkey ++ route ++ hmac) assoc).result =
      if version ≠ 0x00 then
        .error (setReasonSha256 crypto ([version] ++ ephPubkey ++ route ++ hmac)
          lnonionInvOnionVersion)
      else if !crypto.chkpub ephPubkey then
        .error (setReasonSha256 crypto ([version] ++ ephPubkey ++ route ++ hmac)
          lnonionInvOnionKey)
      else if crypto.calcMac (crypto.generateKey mu (crypto.sharedSecret ephPubkey priv))
          (route ++ assoc) ≠ hmac then
        .error (setReasonSha256 crypto ([version] ++ ephPubkey ++ route ++ hmac)
          lnonionInvOnionHmac)
      else peelRoute crypto version ephPubkey (crypto.sharedSecret ephPubkey priv) route := by
  have hdhkey := @hparts.key_eq version
  have hroute := @hparts.route_eq version
  have hhmac := @hparts.hmac_eq version
  generalize hpacket : [version] ++ ephPubkey ++ route ++ hmac = packet at *
  have hversion : packet.headD 0 = version := by
    rw [← hpacket]
    rfl
  rw [lnOnionReadPacket]
  simp only [hversion, hdhkey, hroute, hhmac]
  split_ifs <;> rfl

/-- The node refuses the packet. -/
def Refuses (crypto : OnionCrypto) (priv packet assoc : Bytes) : Prop :=
  ∃ reason, (lnOnionReadPacket crypto priv packet assoc).result = .error reason

theorem refuses_of_version (hparts : PacketParts ephPubkey route hmac)
    (hversion : version ≠ 0x00) :
    Refuses crypto priv ([version] ++ ephPubkey ++ route ++ hmac) assoc :=
  ⟨_, by rw [read_parts hparts, if_pos hversion]⟩

theorem refuses_of_mac (hparts : PacketParts ephPubkey route hmac)
    (hother : crypto.chkpub ephPubkey = true →
      crypto.calcMac (crypto.generateKey mu (crypto.sharedSecret ephPubkey priv))
        (route ++ assoc) ≠ hmac) :
    Refuses crypto priv ([version] ++ ephPubkey ++ route ++ hmac) assoc := by
  by_cases hversion : version = 0x00
  · by_cases hkey : crypto.chkpub ephPubkey = true
    · exact ⟨_, by rw [read_parts hparts, if_neg (by simpa using hversion),
        if_neg (by simp [hkey]), if_pos (hother hkey)]⟩
    · exact ⟨_, by rw [read_parts hparts, if_neg (by simpa using hversion),
        if_pos (by simpa using hkey)]⟩
  · exact refuses_of_version hparts hversion

end Read

/-- The node refuses the packet with other associated data, and with another byte at any
position. -/
structure RefusesOthers (crypto : OnionCrypto) (priv packet assoc : Bytes) : Prop where
  otherAssoc : ∀ other, other ≠ assoc → Refuses crypto priv packet other
  otherByte : ∀ (pos : Nat) (hpos : pos < packet.length) (byte : UInt8), byte ≠ packet[pos] →
    Refuses crypto priv (packet.set pos byte) assoc

theorem set_ne {pos : Nat} {byte : UInt8} {list : Bytes} (hpos : pos < list.length)
    (hbyte : byte ≠ list[pos]) : list.set pos byte ≠ list := by
  intro hsame
  have hget := List.getElem_set_self (l := list) (i := pos) (a := byte) (by simpa using hpos)
  exact hbyte (by rw [← hget]; simp only [hsame])

/-- Nobody forges the packet for the node: no other valid ephemeral key and no other message lead it
to the HMAC. -/
def Unforged (crypto : OnionCrypto) (priv packet assoc : Bytes) : Prop :=
  ∀ pub msg, crypto.chkpub pub = true → szRoutingInfo ≤ msg.length →
    crypto.calcMac (crypto.generateKey mu (crypto.sharedSecret pub priv)) msg =
      (packet.drop (1 + szPubkey + szRoutingInfo)).take szHmac →
    pub = (packet.drop 1).take szPubkey ∧
      msg = (packet.drop (1 + szPubkey)).take szRoutingInfo ++ assoc

theorem refusesOthers {ephPubkey route priv assoc : Bytes}
    (hvalid : crypto.chkpub ephPubkey = true)
    (hparts : PacketParts ephPubkey route
      (crypto.calcMac (crypto.generateKey mu (crypto.sharedSecret ephPubkey priv))
        (route ++ assoc)))
    (hforge : Unforged crypto priv ([0x00] ++ ephPubkey ++ route ++
      crypto.calcMac (crypto.generateKey mu (crypto.sharedSecret ephPubkey priv))
        (route ++ assoc)) assoc) :
    RefusesOthers crypto priv
      ([0x00] ++ ephPubkey ++ route ++
        crypto.calcMac (crypto.generateKey mu (crypto.sharedSecret ephPubkey priv))
          (route ++ assoc))
      assoc := by
  rw [Unforged, hparts.key_eq, hparts.route_eq, hparts.hmac_eq] at hforge
  constructor
  · intro other hother
    refine refuses_of_mac hparts fun _ hsame => hother ?_
    exact List.append_cancel_left (hforge _ _ hvalid (by simp [hparts.route]) hsame).2
  · intro pos hpos byte hbyte
    generalize hsent : crypto.calcMac (crypto.generateKey mu (crypto.sharedSecret ephPubkey priv))
      (route ++ assoc) = sent at *
    simp only [List.append_assoc] at hpos hbyte ⊢
    -- the part that the position is in
    rcases Nat.lt_or_ge pos 1 with hversion | hversion
    · obtain rfl : pos = 0 := by omega
      have hset : ([0x00] ++ (ephPubkey ++ (route ++ sent))).set 0 byte =
          [byte] ++ ephPubkey ++ route ++ sent := by simp
      rw [hset]
      exact refuses_of_version hparts (by simpa using hbyte)
    rw [List.set_append_right _ _ hversion]
    rw [List.getElem_append_right hversion] at hbyte
    rw [List.length_append] at hpos
    simp only [List.length_singleton] at hpos hbyte ⊢
    obtain ⟨behind, rfl⟩ : ∃ behind, pos = behind + 1 := ⟨pos - 1, by omega⟩
    simp only [Nat.add_sub_cancel] at hbyte ⊢
    rcases Nat.lt_or_ge behind ephPubkey.length with heph | heph
    · rw [List.getElem_append_left heph] at hbyte
      rw [List.set_append_left _ _ heph, ← List.append_assoc, ← List.append_assoc]
      refine refuses_of_mac { hparts with ephPubkey := by simpa using hparts.ephPubkey }
        fun hother hsame => set_ne heph hbyte
          (hforge _ _ hother (by simp [hparts.route]) hsame).1
    rw [List.set_append_right _ _ heph]
    rw [List.getElem_append_right heph] at hbyte
    rw [List.length_append] at hpos
    obtain ⟨inner, rfl⟩ : ∃ inner, behind = inner + ephPubkey.length :=
      ⟨behind - ephPubkey.length, by omega⟩
    simp only [Nat.add_sub_cancel] at hbyte ⊢
    rcases Nat.lt_or_ge inner route.length with hroute | hroute
    · rw [List.getElem_append_left hroute] at hbyte
      rw [List.set_append_left _ _ hroute, ← List.append_assoc, ← List.append_assoc]
      refine refuses_of_mac { hparts with route := by simpa using hparts.route }
        fun _ hsame => set_ne hroute hbyte ?_
      exact List.append_cancel_right (hforge _ _ hvalid (by simp [hparts.route]) hsame).2
    · rw [List.length_append] at hpos
      rw [List.getElem_append_right hroute] at hbyte
      rw [List.set_append_right _ _ hroute, ← List.append_assoc, ← List.append_assoc]
      refine refuses_of_mac { hparts with hmac := by simpa using hparts.hmac } fun _ hsame => ?_
      rw [hsent] at hsame
      exact set_ne (by omega) hbyte hsame.symm

/-! ### The route -/

/-- What the payer and the hops rely on from the curve: the order of the factors does
not matter, and multiples of valid keys are valid. -/
structure EcdhLaws (crypto : OnionCrypto) : Prop where
  mul_comm : ∀ pub left right, crypto.mulPubkey (crypto.mulPubkey pub left) right =
    crypto.mulPubkey (crypto.mulPubkey pub right) left
  shared_comm : ∀ left right, crypto.mulPubkey (crypto.priv2pub left) right =
    crypto.mulPubkey (crypto.priv2pub right) left
  chkpub_priv2pub : ∀ priv, crypto.chkpub (crypto.priv2pub priv) = true
  chkpub_mulPubkey : ∀ pub factor, crypto.chkpub pub = true →
    crypto.chkpub (crypto.mulPubkey pub factor) = true

/-- The packets that the payer means for the hops, the first one first. -/
def sentPackets (crypto : OnionCrypto) (assoc filler : Bytes) :
    List LnHopDatain → List HopKeys → List Bytes
  | hop :: hops, keys :: rest =>
      onionPacket keys.ephPubkey (mixHops crypto assoc filler
          ((hop :: hops).zip ((keys :: rest).map HopKeys.sharedSecret))) ::
        sentPackets crypto assoc filler hops rest
  | _, _ => []

/-- No packet that is handed on has the HMAC that marks the last hop. -/
def NoneMarked (packets : List Bytes) : Prop :=
  ∀ packet ∈ packets.tail, (packet.drop (1 + szPubkey + szRoutingInfo)).take szHmac ≠
    List.replicate szHmac 0

/-- The hop data as `ln_onion_read_packet` gives it out. -/
def LnHopDatain.dataout (hop : LnHopDatain) (bExit : Bool) : LnHopDataout :=
  ⟨bExit, hop.shortChannelId, hop.amtToForward, hop.outgoingCltvValue⟩

/-- Each node in turn reads its packet, and no other that is not forged: it finds its own hop
data, is told whether it is the last one, and hands on the packet that comes next. -/
inductive Peels (crypto : OnionCrypto) (assoc : Bytes) :
    List (LnHopDatain × Bytes) → List Bytes → Prop
  | last {hop : LnHopDatain} {priv packet after : Bytes}
      (hread : (lnOnionReadPacket crypto priv packet assoc).result =
        .ok (after, hop.dataout true))
      (hothers : Unforged crypto priv packet assoc → RefusesOthers crypto priv packet assoc) :
      Peels crypto assoc [(hop, priv)] [packet]
  | forward {hop : LnHopDatain} {priv packet next : Bytes} {rest : List (LnHopDatain × Bytes)}
      {packets : List Bytes}
      (hread : (lnOnionReadPacket crypto priv packet assoc).result =
        .ok (next, hop.dataout false))
      (hothers : Unforged crypto priv packet assoc → RefusesOthers crypto priv packet assoc)
      (hrest : Peels crypto assoc rest (next :: packets)) :
      Peels crypto assoc ((hop, priv) :: rest) (packet :: next :: packets)

/-- The keys of `ln_onion_create_packet`: the hops' secrets are the ones they compute,
and every ephemeral key is the one that the hop before hands on. -/
inductive Shared (crypto : OnionCrypto) : List HopKeys → List Bytes → Prop
  | nil : Shared crypto [] []
  | cons {keys : HopKeys} {rest : List HopKeys} {priv : Bytes} {privs : List Bytes}
      (hsecret : keys.sharedSecret = crypto.sharedSecret keys.ephPubkey priv)
      (hvalid : crypto.chkpub keys.ephPubkey = true)
      (hlength : keys.ephPubkey.length = szPubkey)
      (hnext : ∀ next ∈ rest.head?, next.ephPubkey = crypto.mulPubkey keys.ephPubkey
        (crypto.blindingFactor keys.ephPubkey keys.sharedSecret))
      (hrest : Shared crypto rest privs) :
      Shared crypto (keys :: rest) (priv :: privs)

section Keys

variable (laws : EcdhLaws crypto)

include laws in
theorem foldl_mulPubkey_comm (factors : List Bytes) (pub factor : Bytes) :
    crypto.mulPubkey (factors.foldl crypto.mulPubkey pub) factor =
      factors.foldl crypto.mulPubkey (crypto.mulPubkey pub factor) := by
  induction factors generalizing pub with
  | nil => rfl
  | cons first rest ih => rw [List.foldl_cons, ih, laws.mul_comm, List.foldl_cons]

include laws in
theorem chkpub_foldl (factors : List Bytes) {pub : Bytes} (hvalid : crypto.chkpub pub = true) :
    crypto.chkpub (factors.foldl crypto.mulPubkey pub) = true := by
  induction factors generalizing pub with
  | nil => exact hvalid
  | cons first rest ih => exact ih (laws.chkpub_mulPubkey _ _ hvalid)

theorem length_foldl_mulPubkey (factors : List Bytes) (priv : Bytes) :
    (factors.foldl crypto.mulPubkey (crypto.priv2pub priv)).length = szPubkey := by
  induction factors using List.reverseRecOn with
  | nil => exact crypto.length_priv2pub priv
  | append_singleton factors factor _ =>
      rw [List.foldl_append]
      exact crypto.length_mulPubkey _ _

theorem length_hopKeys (sessionKey : Bytes) (pubkeys : List Bytes) (ephPubkey : Bytes)
    (factors : List Bytes) :
    (hopKeys crypto sessionKey pubkeys ephPubkey factors).length = pubkeys.length := by
  induction pubkeys generalizing ephPubkey factors with
  | nil => rfl
  | cons pubkey rest ih => simp [hopKeys, ih]

theorem ephPubkey_hopKeys {sessionKey ephPubkey : Bytes} {pubkeys factors : List Bytes} :
    ∀ keys ∈ (hopKeys crypto sessionKey pubkeys ephPubkey factors).head?,
      keys.ephPubkey = ephPubkey := by
  cases pubkeys <;> simp [hopKeys]

include laws in
theorem shared_hopKeys (sessionKey : Bytes) (privs : List Bytes) (factors : List Bytes) :
    Shared crypto
      (hopKeys crypto sessionKey (privs.map crypto.priv2pub)
        (factors.foldl crypto.mulPubkey (crypto.priv2pub sessionKey)) factors)
      privs := by
  induction privs generalizing factors with
  | nil => exact .nil
  | cons priv privs ih =>
      generalize hsecret : crypto.sha256 (factors.foldl crypto.mulPubkey
        (crypto.mulPubkey (crypto.priv2pub priv) sessionKey)) = secret
      -- the ephemeral key has all factors so far in it
      have hrest := ih (factors ++ [crypto.blindingFactor
        (factors.foldl crypto.mulPubkey (crypto.priv2pub sessionKey)) secret])
      rw [List.foldl_append, List.foldl_cons, List.foldl_nil] at hrest
      rw [List.map_cons, hopKeys]
      simp only [hsecret]
      refine .cons ?_ (chkpub_foldl laws factors (laws.chkpub_priv2pub _))
        (length_foldl_mulPubkey factors sessionKey) ephPubkey_hopKeys hrest
      rw [OnionCrypto.sharedSecret, foldl_mulPubkey_comm laws, laws.shared_comm, hsecret]

end Keys

section Hop

variable {assoc filler priv : Bytes} {keys : HopKeys} {hop : LnHopDatain}
  {others : List (LnHopDatain × Bytes)}

/-- A hop that finds hop data under its key stream reads it. -/
theorem read_sent {nextHmac tail : Bytes}
    (hsecret : keys.sharedSecret = crypto.sharedSecret keys.ephPubkey priv)
    (hvalid : crypto.chkpub keys.ephPubkey = true) (hlength : keys.ephPubkey.length = szPubkey)
    (hfiller : filler.length ≤ szRoutingInfo) (hhmac : nextHmac.length = szHmac)
    (htail : tail.length = szRoutingInfo)
    (hplain : xorBytes (mixFrom crypto assoc filler ((hop, keys.sharedSecret) :: others))
          (bytes (crypto.routeStream keys.sharedSecret) 0 szRoutingInfo) ++
        bytes (crypto.routeStream keys.sharedSecret) szRoutingInfo szHopData =
      hopHeader hop nextHmac ++ tail) :
    (lnOnionReadPacket crypto priv
      (onionPacket keys.ephPubkey
        (mixHops crypto assoc filler ((hop, keys.sharedSecret) :: others))) assoc).result =
      .ok
        ([0x00] ++ crypto.mulPubkey keys.ephPubkey
            (crypto.blindingFactor keys.ephPubkey keys.sharedSecret) ++ tail ++ nextHmac,
          hop.dataout (nextHmac.all (· == 0))) := by
  have hparts : PacketParts keys.ephPubkey
      (mixHops crypto assoc filler ((hop, keys.sharedSecret) :: others)).header
      (mixHops crypto assoc filler ((hop, keys.sharedSecret) :: others)).hmac :=
    ⟨hlength, length_mixFrom hfiller _, length_mixHops_hmac _ _ _⟩
  have hmac : crypto.calcMac
      (crypto.generateKey mu (crypto.sharedSecret keys.ephPubkey priv))
      ((mixHops crypto assoc filler ((hop, keys.sharedSecret) :: others)).header ++ assoc) =
        (mixHops crypto assoc filler ((hop, keys.sharedSecret) :: others)).hmac := by
    rw [← hsecret]
    rfl
  rw [onionPacket, read_parts hparts, if_neg (by simp), if_neg (by simp [hvalid]),
    if_neg (by simpa using hmac), ← hsecret]
  exact peelRoute_plain hhmac htail hplain

theorem parts_sent (hlength : keys.ephPubkey.length = szPubkey)
    (hfiller : filler.length ≤ szRoutingInfo) (hops : List (LnHopDatain × Bytes)) :
    PacketParts keys.ephPubkey (mixHops crypto assoc filler hops).header
      (mixHops crypto assoc filler hops).hmac :=
  ⟨hlength, length_mixFrom hfiller _, length_mixHops_hmac _ _ _⟩

theorem refusesOthers_sent
    (hsecret : keys.sharedSecret = crypto.sharedSecret keys.ephPubkey priv)
    (hvalid : crypto.chkpub keys.ephPubkey = true) (hlength : keys.ephPubkey.length = szPubkey)
    (hfiller : filler.length ≤ szRoutingInfo)
    (hforge : Unforged crypto priv
      (onionPacket keys.ephPubkey
        (mixHops crypto assoc filler ((hop, keys.sharedSecret) :: others))) assoc) :
    RefusesOthers crypto priv
      (onionPacket keys.ephPubkey
        (mixHops crypto assoc filler ((hop, keys.sharedSecret) :: others))) assoc := by
  have hparts := @parts_sent crypto assoc filler keys hlength hfiller
    ((hop, keys.sharedSecret) :: others)
  obtain ⟨ephPubkey, secret⟩ := keys
  dsimp only at hsecret
  subst hsecret
  exact refusesOthers hvalid hparts hforge

end Hop

theorem all_zeros_iff {hmac : Bytes} : hmac.all (· == 0) = true ↔
    hmac = List.replicate hmac.length 0 := by
  simp [List.eq_replicate_iff]

/-- The bytes that a hop shifts in are the ones that its next packet ends in. -/
theorem tail_of_rest {assoc secret : Bytes} {before : List Bytes} {hops : List LnHopDatain}
    {keys : List HopKeys} (hkeys : hops.length = keys.length) (hhops : hops ≠ [])
    (hlength : (before ++ [secret]).length + hops.length ≤ lnHopMax) :
    (mixFrom crypto assoc
        (fillerAfter crypto
          ((before ++ [secret]) ++ (keys.map HopKeys.sharedSecret).dropLast))
        (hops.zip (keys.map HopKeys.sharedSecret))).drop (szRoutingInfo - szHopData) =
      bytes (crypto.routeStream secret) szRoutingInfo szHopData := by
  have hsecrets : (hops.zip (keys.map HopKeys.sharedSecret)).map Prod.snd =
      keys.map HopKeys.sharedSecret := List.map_snd_zip (by simp [hkeys])
  have hzip : (hops.zip (keys.map HopKeys.sharedSecret)).length = hops.length := by
    simp [hkeys]
  have hnonempty : hops.zip (keys.map HopKeys.sharedSecret) ≠ [] :=
    List.ne_nil_of_length_pos (by rw [hzip]; exact List.length_pos_of_ne_nil hhops)
  have hdrop := @drop_mixFrom crypto assoc _ _ hnonempty (hzip ▸ hlength)
  rw [hsecrets] at hdrop
  have hhop : 0 < hops.length := List.length_pos_of_ne_nil hhops
  simp only [List.length_append, List.length_singleton, lnHopMax] at hlength
  have hsplit : szRoutingInfo - szHopData =
      szRoutingInfo - szHopData * (before ++ [secret]).length + szHopData * before.length := by
    rw [List.length_append, List.length_singleton, szRoutingInfo, szHopData]
    omega
  rw [hsplit, ← List.drop_drop, hdrop]
  refine drop_fillerAfter_snoc before secret ?_
  rw [szRoutingInfo, szHopData]
  omega

/-- The HMAC of a packet that is handed on does not mark the last hop. -/
theorem notLast {assoc filler : Bytes} {keys : HopKeys} {hops : List (LnHopDatain × Bytes)}
    (hlength : keys.ephPubkey.length = szPubkey) (hfiller : filler.length ≤ szRoutingInfo)
    (hmarks : ((onionPacket keys.ephPubkey (mixHops crypto assoc filler hops)).drop
      (1 + szPubkey + szRoutingInfo)).take szHmac ≠ List.replicate szHmac 0) :
    (mixHops crypto assoc filler hops).hmac.all (· == 0) = false := by
  rw [onionPacket, (parts_sent hlength hfiller hops).hmac_eq] at hmarks
  rw [Bool.eq_false_iff]
  intro hzeros
  rw [all_zeros_iff, length_mixHops_hmac] at hzeros
  exact hmarks hzeros

/-- The hops of the route that are left peel what is left of the packets. -/
theorem peels_of_shared {assoc filler : Bytes} {hops : List LnHopDatain} {keys : List HopKeys}
    {privs before : List Bytes} (hshared : Shared crypto keys privs) (hhops : hops ≠ [])
    (hkeys : hops.length = keys.length) (hlength : before.length + hops.length ≤ lnHopMax)
    (hfiller : filler =
      fillerAfter crypto (before ++ (keys.map HopKeys.sharedSecret).dropLast))
    (hmarks : NoneMarked (sentPackets crypto assoc filler hops keys)) :
    Peels crypto assoc (hops.zip privs) (sentPackets crypto assoc filler hops keys) := by
  induction hshared generalizing hops before with
  | nil => exact absurd (List.length_eq_zero_iff.mp hkeys) hhops
  | @cons key rest priv privs hsecret hvalid heph hnext hrest ih =>
      cases hops with
      | nil => exact absurd rfl hhops
      | cons hop hops =>
          rw [List.length_cons, List.length_cons, Nat.add_right_cancel_iff] at hkeys
          rw [List.length_cons, lnHopMax] at hlength
          have hsize : filler.length ≤ szRoutingInfo - szHopData := by
            rw [hfiller, length_fillerAfter, szHopData, szRoutingInfo]
            simp only [List.length_append, List.length_dropLast, List.length_map,
              List.length_cons]
            omega
          have hroom := hsize.trans (Nat.sub_le szRoutingInfo szHopData)
          have hothers := @refusesOthers_sent crypto assoc filler priv key hop
            (hops.zip (rest.map HopKeys.sharedSecret)) hsecret hvalid heph hroom
          cases hrest with
          | nil =>
              obtain rfl := List.length_eq_zero_iff.mp hkeys
              obtain ⟨tail, htail, hplain⟩ := @plain_of_last crypto assoc filler
                (hop, key.sharedSecret) hsize
              have hread := read_sent hsecret hvalid heph hroom List.length_replicate htail hplain
              rw [all_zeros_iff.mpr (by simp)] at hread
              exact .last hread hothers
          | @cons nextKey rest' nextPriv privs' hsecret' hvalid' heph' hnext' hrest' =>
              obtain ⟨nextHop, hops, rfl⟩ := List.exists_cons_of_length_eq_add_one hkeys
              have hsecrets : before ++
                  ((key :: nextKey :: rest').map HopKeys.sharedSecret).dropLast =
                  (before ++ [key.sharedSecret]) ++
                    ((nextKey :: rest').map HopKeys.sharedSecret).dropLast := by simp
              have hroute : (before ++ [key.sharedSecret]).length + (nextHop :: hops).length ≤
                  lnHopMax := by
                simp only [List.length_append, List.length_nil, lnHopMax,
                  List.length_cons] at hlength ⊢
                omega
              rw [hsecrets] at hfiller
              have hpeels := ih (by simp) hkeys hroute hfiller
                fun packet hmem => hmarks packet (List.mem_of_mem_tail hmem)
              have htail := @tail_of_rest crypto assoc key.sharedSecret before _ _
                hkeys (by simp) hroute
              rw [← hfiller] at htail
              have hread := read_sent hsecret hvalid heph hroom (length_mixHops_hmac _ _ _)
                (length_mixFrom hroom _)
                (@plain_of_forward crypto _ _ (hop, key.sharedSecret) _ (by simp) hroom htail)
              have hmiddle : (mixHops crypto assoc filler ((nextHop :: hops).zip
                  ((nextKey :: rest').map HopKeys.sharedSecret))).hmac.all (· == 0) = false :=
                notLast heph' hroom (hmarks _ List.mem_cons_self)
              rw [hmiddle, ← hnext nextKey rfl] at hread
              exact .forward hread hothers hpeels

/-- The keys that the payer makes for a route. -/
def routeKeys (crypto : OnionCrypto) (hops : List LnHopDatain) (sessionKey : Bytes) :
    List HopKeys :=
  hopKeys crypto sessionKey (hops.map LnHopDatain.pubkey) (crypto.priv2pub sessionKey) []

/-- The filler that the payer makes for a route. -/
def routeFiller (crypto : OnionCrypto) (hops : List LnHopDatain) (sessionKey : Bytes) : Bytes :=
  generateHeaderPadding crypto rho ((routeKeys crypto hops sessionKey).map HopKeys.sharedSecret)

/-- The payer makes a packet, and the hops in turn peel it. -/
def OnionWorks (crypto : OnionCrypto) (hops : List LnHopDatain) (privs : List Bytes)
    (sessionKey assoc : Bytes) : Prop :=
  ∃ packet secrets packets, lnOnionCreatePacket crypto hops sessionKey assoc =
      .made packet secrets ∧
    sentPackets crypto assoc (routeFiller crypto hops sessionKey) hops
      (routeKeys crypto hops sessionKey) = packet :: packets ∧
    Peels crypto assoc (hops.zip privs) (packet :: packets)

/-- What the nodes of a route refuse. -/
theorem Peels.refusesOthers {assoc : Bytes} {route : List (LnHopDatain × Bytes)}
    {packets : List Bytes} (hpeels : Peels crypto assoc route packets) :
    ∀ pair ∈ (route.map Prod.snd).zip packets, Unforged crypto pair.1 pair.2 assoc →
      RefusesOthers crypto pair.1 pair.2 assoc := by
  induction hpeels with
  | last hread hothers =>
      intro pair hmem
      obtain rfl := List.mem_singleton.mp hmem
      exact hothers
  | forward hread hothers hrest ih =>
      intro pair hmem
      rcases List.mem_cons.mp hmem with rfl | hlater
      · exact hothers
      · exact ih pair hlater

section ThreeHops

theorem OnionCrypto.mulPubkey_additive (pub factor : Bytes) :
    OnionCrypto.additive.mulPubkey pub factor =
      0x02 :: BigEndian.encode 32 (BigEndian.decode (pub.drop 1) + BigEndian.decode factor) :=
  rfl

/-- The key that comes of a secret. -/
def keyOf (secret : Bytes) : Bytes :=
  (secret.drop 1 ++ List.replicate 32 0).take 32

/-- The additive primitives; the HMAC with a key that was generated is a tag. -/
def OnionCrypto.tagging (tag : Bytes → Bytes → UInt8) : OnionCrypto where
  __ := OnionCrypto.additive
  calcMac key msg := if key.length < 32 then keyOf msg else List.replicate 32 (tag key msg)
  length_calcMac key msg := by
    split <;> simp [keyOf]

variable {tag : Bytes → Bytes → UInt8}

theorem ecdhLaws_tagging : EcdhLaws (.tagging tag) where
  mul_comm pub left right := by
    simp only [OnionCrypto.tagging, OnionCrypto.mulPubkey_additive, List.drop_succ_cons,
      List.drop_zero, BigEndian.encode_add]
    rw [Nat.add_right_comm]
  shared_comm left right := by
    have hpub : ∀ priv, OnionCrypto.additive.priv2pub priv =
        0x02 :: BigEndian.encode 32 (BigEndian.decode priv) := fun _ => rfl
    simp only [OnionCrypto.tagging, OnionCrypto.mulPubkey_additive, hpub, List.drop_succ_cons,
      List.drop_zero, BigEndian.encode_add]
    rw [Nat.add_comm]
  chkpub_priv2pub priv := by simp [OnionCrypto.tagging, OnionCrypto.additive]
  chkpub_mulPubkey pub factor _ := by simp [OnionCrypto.tagging, OnionCrypto.additive]

theorem hopKeys_tagging (sessionKey : Bytes) (pubkeys : List Bytes) (ephPubkey : Bytes)
    (factors : List Bytes) :
    hopKeys (.tagging tag) sessionKey pubkeys ephPubkey factors =
      hopKeys .additive sessionKey pubkeys ephPubkey factors := by
  induction pubkeys generalizing ephPubkey factors with
  | nil => rfl
  | cons pubkey rest ih =>
      rw [hopKeys, ih]
      rfl

theorem generateHeaderPadding_tagging (secrets : List Bytes) :
    generateHeaderPadding (.tagging tag) rho secrets =
      generateHeaderPadding (.tagging fun _ _ => 0) rho secrets :=
  rfl

/-- A valid key is found from its sum with a factor. -/
theorem pub_of_mulPubkey {pub pub' factor : Bytes}
    (hvalid : OnionCrypto.additive.chkpub pub = true)
    (hvalid' : OnionCrypto.additive.chkpub pub' = true)
    (hsame : OnionCrypto.additive.mulPubkey pub factor =
      OnionCrypto.additive.mulPubkey pub' factor) : pub = pub' := by
  have hform : ∀ pub, OnionCrypto.additive.chkpub pub = true →
      pub = 0x02 :: BigEndian.encode 32 (BigEndian.decode (pub.drop 1)) ∧
        BigEndian.decode (pub.drop 1) < 256 ^ 32 := by
    intro pub hpub
    cases pub with
    | nil => cases hpub
    | cons first rest =>
        simp only [OnionCrypto.additive, List.length_cons, List.head?_cons, Bool.and_eq_true,
          beq_iff_eq, Option.some.injEq] at hpub
        have hrest : rest.length = 32 := by omega
        rw [List.drop_succ_cons, List.drop_zero, ← hrest, BigEndian.encode_decode, hpub.2]
        exact ⟨rfl, BigEndian.decode_lt rest⟩
  obtain ⟨hpub, hfits⟩ := hform pub hvalid
  obtain ⟨hpub', hfits'⟩ := hform pub' hvalid'
  rw [OnionCrypto.mulPubkey_additive, OnionCrypto.mulPubkey_additive, List.cons.injEq] at hsame
  have hmod := congrArg BigEndian.decode hsame.2
  rw [BigEndian.decode_encode_mod, BigEndian.decode_encode_mod] at hmod
  have hdecode : BigEndian.decode (pub.drop 1) = BigEndian.decode (pub'.drop 1) := by
    have hcancel := Nat.ModEq.add_right_cancel' (BigEndian.decode factor) hmod
    rwa [Nat.ModEq, Nat.mod_eq_of_lt hfits, Nat.mod_eq_of_lt hfits'] at hcancel
  rw [hpub, hpub', hdecode]

theorem calcMac_keyOf (secret msg : Bytes) :
    (OnionCrypto.tagging tag).calcMac (keyOf secret) msg =
      List.replicate 32 (tag (keyOf secret) msg) :=
  if_neg (by simp [keyOf])

theorem generateKey_mu (secret : Bytes) :
    (OnionCrypto.tagging tag).generateKey mu secret = keyOf secret :=
  rfl

/-- A valid ephemeral key is found from the key that comes of it. -/
theorem pub_of_keyOf {pub pub' priv : Bytes} (hvalid : (OnionCrypto.tagging tag).chkpub pub = true)
    (hvalid' : (OnionCrypto.tagging tag).chkpub pub' = true)
    (hsame : keyOf ((OnionCrypto.tagging tag).sharedSecret pub priv) =
      keyOf ((OnionCrypto.tagging tag).sharedSecret pub' priv)) : pub = pub' := by
  have hkey : ∀ pub, keyOf ((OnionCrypto.tagging tag).sharedSecret pub priv) =
      (OnionCrypto.additive.mulPubkey pub priv).drop 1 := by
    intro pub
    change keyOf (OnionCrypto.additive.mulPubkey pub priv) = _
    rw [keyOf, OnionCrypto.mulPubkey_additive]
    generalize BigEndian.decode (pub.drop 1) + BigEndian.decode priv = sum
    rw [List.drop_succ_cons, List.drop_zero, List.take_left' (BigEndian.length_encode 32 sum)]
  rw [hkey, hkey] at hsame
  exact pub_of_mulPubkey hvalid hvalid' (congrArg (0x02 :: ·) hsame)

variable {number : Bytes → UInt8} {made : List (Bytes × Bytes)} {assoc filler : Bytes}

/-- The keys and messages that the payer makes HMACs of, when an HMAC is the number of its key. -/
def madeFor (number : Bytes → UInt8) (assoc filler : Bytes) :
    List (LnHopDatain × Bytes) → List (Bytes × Bytes)
  | [] => []
  | hop :: rest =>
      (keyOf hop.2, (mixHops (.tagging fun key _ => number key) assoc filler
          (hop :: rest)).header ++ assoc) ::
        madeFor number assoc filler rest

/-- The HMAC is the number of the key for what was made, and zero for everything else. -/
def OnionCrypto.numbering (number : Bytes → UInt8) (made : List (Bytes × Bytes)) : OnionCrypto :=
  .tagging fun key msg => if (key, msg) ∈ made then number key else 0

theorem mixHops_numbering {hops : List (LnHopDatain × Bytes)}
    (hmade : ∀ pair ∈ madeFor number assoc filler hops, pair ∈ made) :
    mixHops (.numbering number made) assoc filler hops =
      mixHops (.tagging fun key _ => number key) assoc filler hops := by
  induction hops with
  | nil => rfl
  | cons hop rest ih =>
      have hrest := ih fun pair hmem => hmade pair (List.mem_cons_of_mem _ hmem)
      have hheader : (mixHops (.numbering number made) assoc filler (hop :: rest)).header =
          (mixHops (.tagging fun key _ => number key) assoc filler (hop :: rest)).header := by
        rw [mixHops, hrest]
        rfl
      have hmac : (mixHops (.numbering number made) assoc filler (hop :: rest)).hmac =
          (mixHops (.tagging fun key _ => number key) assoc filler (hop :: rest)).hmac := by
        change (OnionCrypto.numbering number made).calcMac (keyOf hop.2)
            ((mixHops (.numbering number made) assoc filler (hop :: rest)).header ++ assoc) =
          (OnionCrypto.tagging fun key _ => number key).calcMac (keyOf hop.2)
            ((mixHops (.tagging fun key _ => number key) assoc filler
              (hop :: rest)).header ++ assoc)
        rw [hheader, OnionCrypto.numbering, calcMac_keyOf, calcMac_keyOf,
          if_pos (hmade _ List.mem_cons_self)]
      exact congrArg₂ OnionMix.mk hheader hmac

/-- The HMAC of a packet of the route. -/
theorem hmac_numbering {keys : HopKeys} {hop : LnHopDatain} {others : List (LnHopDatain × Bytes)}
    (hmade : ∀ pair ∈ madeFor number assoc filler ((hop, keys.sharedSecret) :: others),
      pair ∈ made) :
    (mixHops (.numbering number made) assoc filler ((hop, keys.sharedSecret) :: others)).hmac =
      List.replicate 32 (number (keyOf keys.sharedSecret)) := by
  rw [mixHops_numbering hmade]
  exact @calcMac_keyOf (fun key _ => number key) keys.sharedSecret _

/-- A packet of the route is not forged, when its key has a number of its own. -/
theorem unforged_numbering {priv : Bytes} {keys : HopKeys} {hop : LnHopDatain}
    {others : List (LnHopDatain × Bytes)}
    (hshared : keys.sharedSecret =
      (OnionCrypto.numbering number made).sharedSecret keys.ephPubkey priv)
    (hvalid : (OnionCrypto.numbering number made).chkpub keys.ephPubkey = true)
    (hlength : keys.ephPubkey.length = szPubkey) (hfiller : filler.length ≤ szRoutingInfo)
    (hmade : ∀ pair ∈ madeFor number assoc filler ((hop, keys.sharedSecret) :: others),
      pair ∈ made)
    (hnumber : number (keyOf keys.sharedSecret) ≠ 0)
    (hinj : ∀ pair ∈ made, ∀ pair' ∈ made, number pair.1 = number pair'.1 → pair = pair') :
    Unforged (.numbering number made) priv
      (onionPacket keys.ephPubkey (mixHops (.numbering number made) assoc filler
        ((hop, keys.sharedSecret) :: others))) assoc := by
  have hparts := @parts_sent (.numbering number made) assoc filler keys hlength hfiller
    ((hop, keys.sharedSecret) :: others)
  rw [Unforged, onionPacket, hparts.key_eq, hparts.route_eq, hparts.hmac_eq,
    hmac_numbering hmade, mixHops_numbering hmade]
  intro pub msg hpub _ hsame
  rw [OnionCrypto.numbering, generateKey_mu, calcMac_keyOf, List.replicate_inj] at hsame
  have htag := hsame.2.resolve_left (by decide)
  split at htag
  case isTrue hmem =>
    have hpair := hinj _ hmem _ (hmade _ List.mem_cons_self) htag
    obtain ⟨hkey, hmsg⟩ := Prod.mk.inj hpair
    rw [hshared] at hkey
    exact ⟨pub_of_keyOf hpub hvalid hkey, hmsg⟩
  case isFalse => exact absurd htag.symm hnumber

theorem map_madeFor (hops : List (LnHopDatain × Bytes)) :
    ((madeFor number assoc filler hops).map fun pair => number pair.1) =
      hops.map fun hop => number (keyOf hop.2) := by
  induction hops with
  | nil => rfl
  | cons hop rest ih => rw [madeFor, List.map_cons, List.map_cons, ih]

/-- With numbers for all keys, no packet of the route is forged, and none has the mark of the last
hop. -/
theorem Shared.unforged {hops : List LnHopDatain} {keys : List HopKeys} {privs : List Bytes}
    (hshared : Shared (.numbering number made) keys privs) (hkeys : hops.length = keys.length)
    (hfiller : filler.length ≤ szRoutingInfo)
    (hmade : ∀ pair ∈ madeFor number assoc filler (hops.zip (keys.map HopKeys.sharedSecret)),
      pair ∈ made)
    (hnumber : ∀ key ∈ keys, number (keyOf key.sharedSecret) ≠ 0)
    (hinj : ∀ pair ∈ made, ∀ pair' ∈ made, number pair.1 = number pair'.1 → pair = pair') :
    (∀ pair ∈ privs.zip (sentPackets (.numbering number made) assoc filler hops keys),
      Unforged (.numbering number made) pair.1 pair.2 assoc) ∧
    ∀ packet ∈ sentPackets (.numbering number made) assoc filler hops keys,
      (packet.drop (1 + szPubkey + szRoutingInfo)).take szHmac ≠ List.replicate szHmac 0 := by
  induction hshared generalizing hops with
  | nil =>
      obtain rfl := List.length_eq_zero_iff.mp hkeys
      constructor
      · intro pair hmem
        cases hmem
      · intro packet hmem
        cases hmem
  | @cons key rest priv privs hsecret hvalid heph hnext hrest ih =>
      obtain ⟨hop, hops, rfl⟩ := List.exists_cons_of_length_eq_add_one hkeys
      rw [List.length_cons, List.length_cons, Nat.add_right_cancel_iff] at hkeys
      obtain ⟨hunforged, hmarks⟩ := ih hkeys
        (fun pair hmem => hmade pair (List.mem_cons_of_mem _ hmem))
        fun key hmem => hnumber key (List.mem_cons_of_mem _ hmem)
      have hfirst := hnumber key List.mem_cons_self
      have hhead := unforged_numbering hsecret hvalid heph hfiller hmade hfirst hinj
      constructor
      · intro pair hmem
        rcases List.mem_cons.mp hmem with rfl | hlater
        · exact hhead
        · exact hunforged pair hlater
      · intro packet hmem
        rcases List.mem_cons.mp hmem with rfl | hlater
        · have hhmac := hmac_numbering hmade
          rw [onionPacket, (parts_sent heph hfiller _).hmac_eq, List.map_cons, List.zip_cons_cons]
          rw [← List.zip] at hhmac
          rw [hhmac, szHmac, ne_eq, List.replicate_inj]
          rintro ⟨-, hzero⟩
          exact hfirst (hzero.resolve_left (by decide))
        · exact hmarks packet hlater

def threeHops : List LnHopDatain :=
  [⟨0x1234, 3000, 500, OnionCrypto.additive.priv2pub [5]⟩,
    ⟨0x5678, 2000, 400, OnionCrypto.additive.priv2pub [6]⟩,
    ⟨0, 2000, 400, OnionCrypto.additive.priv2pub [7]⟩]

def threePrivs : List Bytes := [[5], [6], [7]]

/-- The keys and the filler of the route. -/
def threeKeys : List HopKeys :=
  routeKeys .additive threeHops [9]

def threeFiller : Bytes :=
  generateHeaderPadding (.tagging fun _ _ => 0) rho (threeKeys.map HopKeys.sharedSecret)

/-- The place of a key in the route, from 1 on. -/
def threeNumber (key : Bytes) : UInt8 :=
  let keys := threeKeys.map fun keys => keyOf keys.sharedSecret
  if key ∈ keys then (keys.idxOf key + 1).toUInt8 else 0

def OnionCrypto.three : OnionCrypto :=
  .numbering threeNumber (madeFor threeNumber [0x70] threeFiller
    (threeHops.zip (threeKeys.map HopKeys.sharedSecret)))

theorem routeKeys_three : routeKeys .three threeHops [9] = threeKeys :=
  hopKeys_tagging [9] _ _ []

theorem routeFiller_three : routeFiller .three threeHops [9] = threeFiller := by
  rw [routeFiller, routeKeys_three]
  exact generateHeaderPadding_tagging _

/-- The packets of the three hops, which are not forged. -/
theorem three_unforged :
    (∀ pair ∈ threePrivs.zip (sentPackets .three [0x70] threeFiller threeHops threeKeys),
      Unforged .three pair.1 pair.2 [0x70]) ∧
    ∀ packet ∈ sentPackets .three [0x70] threeFiller threeHops threeKeys,
      (packet.drop (1 + szPubkey + szRoutingInfo)).take szHmac ≠ List.replicate szHmac 0 := by
  have hkeys : (threeKeys.map fun keys => threeNumber (keyOf keys.sharedSecret)) = [1, 2, 3] := by
    decide +kernel
  have hroute : ((threeHops.zip (threeKeys.map HopKeys.sharedSecret)).map fun hop =>
      threeNumber (keyOf hop.2)) = [1, 2, 3] := by
    decide +kernel
  have hshared : Shared .three threeKeys threePrivs := by
    rw [← routeKeys_three]
    exact shared_hopKeys ecdhLaws_tagging [9] threePrivs []
  have hfiller : threeFiller.length ≤ szRoutingInfo := by decide +kernel
  refine hshared.unforged rfl hfiller (fun _ hmem => hmem) ?_ ?_
  · intro key hmem hzero
    have hnumber : threeNumber (keyOf key.sharedSecret) ∈ [1, 2, 3] := by
      rw [← hkeys]
      exact List.mem_map_of_mem (f := fun keys => threeNumber (keyOf keys.sharedSecret)) hmem
    rw [hzero] at hnumber
    exact absurd hnumber (by decide)
  · intro pair hmem pair' hmem' hsame
    refine List.inj_on_of_nodup_map (f := fun pair => threeNumber pair.1) ?_ hmem hmem' hsame
    rw [map_madeFor, hroute]
    decide

end ThreeHops

end Ptarmigan
