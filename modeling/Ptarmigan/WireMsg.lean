/-
What every message on the wire is made of: its type, numbers with the highest byte first, and the
buffer it is pushed into.
-/
import Ptarmigan.Library.BigEndian
import Ptarmigan.Library.WireReader
import Ptarmigan.Htlc

namespace Ptarmigan

open WireReader

/-- What the messages are checked against: `btc_keys_chkpub` and `gGenesisChainHash`. -/
structure WireEnv where
  chkpub : Bytes → Bool
  genesisChainHash : Bytes

/-- Every key passes, the chain is that of 32 zeroes: to evaluate the model with. -/
def WireEnv.symbolic : WireEnv := ⟨fun _ => true, List.replicate 32 0⟩

/-- The messages of `RECV_FUNC`. -/
inductive MsgType
  | init
  | error
  | ping
  | pong
  | openChannel
  | acceptChannel
  | fundingCreated
  | fundingSigned
  | fundingLocked
  | shutdown
  | closingSigned
  | updateAddHtlc
  | updateFulfillHtlc
  | updateFailHtlc
  | commitmentSigned
  | revokeAndAck
  | updateFee
  | updateFailMalformedHtlc
  | channelReestablish
  | channelAnnouncement
  | nodeAnnouncement
  | channelUpdate
  | announcementSignatures
deriving DecidableEq, Repr

/-- `MSGTYPE_*`. -/
def MsgType.code : MsgType → UInt16
  | .init => 0x0010
  | .error => 0x0011
  | .ping => 0x0012
  | .pong => 0x0013
  | .openChannel => 0x0020
  | .acceptChannel => 0x0021
  | .fundingCreated => 0x0022
  | .fundingSigned => 0x0023
  | .fundingLocked => 0x0024
  | .shutdown => 0x0026
  | .closingSigned => 0x0027
  | .updateAddHtlc => 0x0080
  | .updateFulfillHtlc => 0x0082
  | .updateFailHtlc => 0x0083
  | .commitmentSigned => 0x0084
  | .revokeAndAck => 0x0085
  | .updateFee => 0x0086
  | .updateFailMalformedHtlc => 0x0087
  | .channelReestablish => 0x0088
  | .channelAnnouncement => 0x0100
  | .nodeAnnouncement => 0x0101
  | .channelUpdate => 0x0102
  | .announcementSignatures => 0x0103

/-! ### Numbers -/

/-- `ln_misc_push16be`, and `ln_misc_get16be` below; likewise for the other sizes. -/
def lnMiscPush16be (value : UInt16) : Bytes := BigEndian.encode 2 value.toNat

def lnMiscPush32be (value : UInt32) : Bytes := BigEndian.encode 4 value.toNat

def lnMiscPush64be (value : UInt64) : Bytes := BigEndian.encode 8 value.toNat

def lnMiscGet16be (bytes : Bytes) : UInt16 := (BigEndian.decode bytes).toUInt16

def lnMiscGet32be (bytes : Bytes) : UInt32 := (BigEndian.decode bytes).toUInt32

def lnMiscGet64be (bytes : Bytes) : UInt64 := (BigEndian.decode bytes).toUInt64

@[simp] theorem length_lnMiscPush16be (value : UInt16) : (lnMiscPush16be value).length = 2 :=
  BigEndian.length_encode 2 _

@[simp] theorem length_lnMiscPush32be (value : UInt32) : (lnMiscPush32be value).length = 4 :=
  BigEndian.length_encode 4 _

@[simp] theorem length_lnMiscPush64be (value : UInt64) : (lnMiscPush64be value).length = 8 :=
  BigEndian.length_encode 8 _

@[simp] theorem lnMiscGet16be_lnMiscPush16be (value : UInt16) :
    lnMiscGet16be (lnMiscPush16be value) = value := by
  have hdecode : BigEndian.decode (lnMiscPush16be value) = value.toNat :=
    BigEndian.decode_encode value.toNat_lt
  rw [lnMiscGet16be, hdecode]
  exact UInt16.ofNat_toNat

@[simp] theorem lnMiscGet32be_lnMiscPush32be (value : UInt32) :
    lnMiscGet32be (lnMiscPush32be value) = value := by
  have hdecode : BigEndian.decode (lnMiscPush32be value) = value.toNat :=
    BigEndian.decode_encode value.toNat_lt
  rw [lnMiscGet32be, hdecode]
  exact UInt32.ofNat_toNat

@[simp] theorem lnMiscGet64be_lnMiscPush64be (value : UInt64) :
    lnMiscGet64be (lnMiscPush64be value) = value := by
  have hdecode : BigEndian.decode (lnMiscPush64be value) = value.toNat :=
    BigEndian.decode_encode value.toNat_lt
  rw [lnMiscGet64be, hdecode]
  exact UInt64.ofNat_toNat

/-- The number of bytes of a field, as the message carries it. -/
theorem toNat_toUInt16 {count : Nat} (hfits : count < 65536) : count.toUInt16.toNat = count :=
  UInt16.toNat_ofNat_of_lt' hfits

/-! ### Lengths -/

/-- What stands at a position of a message. -/
def slice (data : Bytes) (pos width : Nat) : Bytes :=
  (data.drop pos).take width

/-- The 16 bits that count something at a position. -/
def countAt (data : Bytes) (pos : Nat) : Nat :=
  (lnMiscGet16be (slice data pos 2)).toNat

/-- How long a message says it is: its fixed part, and the parts that it counts. -/
def declaredLength (type : MsgType) (data : Bytes) : Nat :=
  match type with
  | .init => 6 + countAt data 2 + countAt data (4 + countAt data 2)
  | .error => 36 + countAt data 34
  | .ping => 6 + countAt data 4
  | .pong => 4 + countAt data 2
  | .openChannel => 321
  | .acceptChannel => 272
  | .fundingCreated => 132
  | .fundingSigned => 98
  | .fundingLocked => 67
  | .shutdown => 36 + countAt data 34
  | .closingSigned => 106
  | .updateAddHtlc => 1452
  | .updateFulfillHtlc => 74
  | .updateFailHtlc => 44 + countAt data 42
  | .commitmentSigned => 100 + countAt data 98 * 64
  | .revokeAndAck => 99
  | .updateFee => 38
  | .updateFailMalformedHtlc => 76
  | .channelReestablish => 50
  | .channelAnnouncement => 432 + countAt data 258
  | .nodeAnnouncement => 142 + countAt data 66 + countAt data (140 + countAt data 66)
  | .channelUpdate => 130
  | .announcementSignatures => 170

/-- A read that is done ends inside the message, with all of it that the message declares. -/
def ReadWhole {α : Type} (type : MsgType) (data : Bytes) : α → Nat → Prop :=
  fun _ pos => declaredLength type data ≤ pos ∧ pos ≤ data.length

/-! ### Reading -/

section Read

variable {ε : Type}

def readBe16 : WireReader ε UInt16 := do
  let field ← bytes 2
  pure (lnMiscGet16be field)

def readBe32 : WireReader ε UInt32 := do
  let field ← bytes 4
  pure (lnMiscGet32be field)

def readBe64 : WireReader ε UInt64 := do
  let field ← bytes 8
  pure (lnMiscGet64be field)

def readByte : WireReader ε UInt8 := do
  let field ← bytes 1
  pure (field.headD 0)

/-- The length check and the type check that a read function starts with. -/
def readType (type : MsgType) (width : Nat) (left : ε) : WireReader ε Unit := do
  atLeast width left
  let found ← readBe16
  refuseIf (found != type.code) left

variable {data : Bytes} {pos : Nat} {rest : Bytes}

@[simp] theorem wp_readBe16 (post : UInt16 → Nat → Prop) :
    wp (readBe16 : WireReader ε _) data pos post ↔
      pos + 2 ≤ data.length ∧ post (lnMiscGet16be (slice data pos 2)) (pos + 2) := by
  simp [readBe16, slice]

@[simp] theorem wp_readBe32 (post : UInt32 → Nat → Prop) :
    wp (readBe32 : WireReader ε _) data pos post ↔
      pos + 4 ≤ data.length ∧ post (lnMiscGet32be (slice data pos 4)) (pos + 4) := by
  simp [readBe32, slice]

@[simp] theorem wp_readBe64 (post : UInt64 → Nat → Prop) :
    wp (readBe64 : WireReader ε _) data pos post ↔
      pos + 8 ≤ data.length ∧ post (lnMiscGet64be (slice data pos 8)) (pos + 8) := by
  simp [readBe64, slice]

@[simp] theorem wp_readByte (post : UInt8 → Nat → Prop) :
    wp (readByte : WireReader ε _) data pos post ↔
      pos + 1 ≤ data.length ∧ post (((data.drop pos).take 1).headD 0) (pos + 1) := by
  simp only [readByte, wp_bind, wp_bytes, wp_pure]

/-- A message that is long enough and of the type is read on behind the type. -/
theorem wp_readType {type : MsgType} {width : Nat} {left : ε} {post : Unit → Nat → Prop}
    (hwidth : 2 ≤ width) :
    wp (readType type width left) data 0 post ↔
      (width ≤ data.length → lnMiscGet16be (slice data 0 2) = type.code → post () 2) := by
  simp only [readType, wp_bind, wp_atLeast, wp_readBe16, wp_refuseIf, Nat.zero_add,
    bne_eq_false_iff_eq]
  constructor
  · intro hread hlong
    exact (hread hlong).2
  · intro hread hlong
    exact ⟨hwidth.trans hlong, hread hlong⟩

theorem readBe16_reads (value : UInt16) :
    Reads pos rest (readBe16 : WireReader ε _) (lnMiscPush16be value) value := by
  have hread : Reads pos rest (readBe16 : WireReader ε _) (lnMiscPush16be value ++ [])
      (lnMiscGet16be (lnMiscPush16be value)) := by
    apply Reads.bind (Reads.bytes (length_lnMiscPush16be value))
    apply Reads.pure
  rwa [List.append_nil, lnMiscGet16be_lnMiscPush16be] at hread

theorem readBe32_reads (value : UInt32) :
    Reads pos rest (readBe32 : WireReader ε _) (lnMiscPush32be value) value := by
  have hread : Reads pos rest (readBe32 : WireReader ε _) (lnMiscPush32be value ++ [])
      (lnMiscGet32be (lnMiscPush32be value)) := by
    apply Reads.bind (Reads.bytes (length_lnMiscPush32be value))
    apply Reads.pure
  rwa [List.append_nil, lnMiscGet32be_lnMiscPush32be] at hread

theorem readBe64_reads (value : UInt64) :
    Reads pos rest (readBe64 : WireReader ε _) (lnMiscPush64be value) value := by
  have hread : Reads pos rest (readBe64 : WireReader ε _) (lnMiscPush64be value ++ [])
      (lnMiscGet64be (lnMiscPush64be value)) := by
    apply Reads.bind (Reads.bytes (length_lnMiscPush64be value))
    apply Reads.pure
  rwa [List.append_nil, lnMiscGet64be_lnMiscPush64be] at hread

theorem readByte_reads (value : UInt8) :
    Reads pos rest (readByte : WireReader ε _) [value] value := by
  change Reads pos rest (readByte : WireReader ε _) ([value] ++ []) value
  apply Reads.bind (Reads.bytes rfl)
  apply Reads.pure

theorem readType_reads {type : MsgType} {width : Nat} {left : ε} (hlong : width ≤ 2 + rest.length) :
    Reads 0 rest (readType type width left) (lnMiscPush16be type.code) () := by
  have hlength : width ≤ 0 + (lnMiscPush16be type.code ++ rest).length := by
    rw [List.length_append, length_lnMiscPush16be, Nat.zero_add]
    exact hlong
  have hread : Reads 0 rest (readType type width left) (lnMiscPush16be type.code ++ []) () := by
    rw [← List.append_nil (lnMiscPush16be type.code)] at hlength
    apply Reads.next (Reads.atLeast hlength)
    apply Reads.bind (readBe16_reads type.code)
    exact Reads.refuseIf (bne_self_eq_false _)
  rwa [List.append_nil] at hread

end Read

/-! ### Writing -/

/-- `utl_push_init` with the size, the pushes, the `assert` that the buffer did not have to grow,
and `utl_push_trim`. -/
def utlPush (size : Nat) (fields : List Bytes) : Option Bytes :=
  if fields.flatten.length ≤ size then some fields.flatten else none

theorem length_of_utlPush {size : Nat} {fields : List Bytes} {bytes : Bytes}
    (hpushed : utlPush size fields = some bytes) : bytes.length ≤ size := by
  rw [utlPush] at hpushed
  split at hpushed
  · rename_i hfits
    rwa [← Option.some.inj hpushed]
  · cases hpushed

/-- A read function gets the length of the message as a `uint16_t`. -/
def readWith {ε α : Type} (reader : WireReader ε α) (bytes : Bytes) : Result ε α :=
  reader.run (bytes.take (bytes.length % 65536))

theorem readWith_run {ε α : Type} (reader : WireReader ε α) {bytes : Bytes}
    (hshort : bytes.length < 65536) : readWith reader bytes = reader.run bytes := by
  rw [readWith, Nat.mod_eq_of_lt hshort, List.take_length]

/-- The message is made, and what reads it gets the value back, unless its length is too much for
the reader's argument. -/
def RoundTrips {ε α : Type} (created : Option Bytes) (reader : WireReader ε α) (value : α) : Prop :=
  ∃ bytes, created = some bytes ∧
    (bytes.length < 65536 → readWith reader bytes = .done value bytes.length)

theorem RoundTrips.map {ε α β : Type} {created : Option Bytes} {reader : WireReader ε α} {value : α}
    (convert : α → β) (htrips : RoundTrips created reader value) :
    RoundTrips created (convert <$> reader) (convert value) := by
  obtain ⟨bytes, hcreated, hread⟩ := htrips
  refine ⟨bytes, hcreated, fun hshort => ?_⟩
  have hdone := hread hshort
  rw [readWith] at hdone ⊢
  exact run_bind hdone

theorem RoundTrips.discard {ε α : Type} {created : Option Bytes} {reader : WireReader ε α}
    {value : α} (htrips : RoundTrips created reader value) :
    RoundTrips created reader.discard value := by
  obtain ⟨bytes, hcreated, hread⟩ := htrips
  refine ⟨bytes, hcreated, fun hshort => ?_⟩
  have hdone := hread hshort
  rw [readWith, run] at hdone ⊢
  rw [WireReader.discard, hdone]

theorem roundTrips_utlPush {ε α : Type} {size : Nat} {fields : List Bytes}
    {reader : WireReader ε α} {value : α} (hfits : fields.flatten.length ≤ size)
    (hreads : fields.flatten.length < 65536 → Reads 0 [] reader fields.flatten value) :
    RoundTrips (utlPush size fields) reader value := by
  refine ⟨fields.flatten, if_pos hfits, fun hshort => ?_⟩
  rw [readWith_run reader hshort]
  exact (hreads hshort).run

end Ptarmigan
