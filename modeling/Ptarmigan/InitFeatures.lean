/-
The features of a received `init`: what `recv_init` accepts, and which bytes it looks at.
-/
import Mathlib.Data.List.GetD
import Ptarmigan.Channel
import Ptarmigan.SetupMsg

namespace Ptarmigan

open WireReader

/-! ### The scan of a vector -/

/-- The mask of the even bits of a byte. -/
def evenMask : UInt8 := 0x55

/-- `LN_INIT_LF_OPT_DATALOSS_REQ`. -/
def lnInitLfOptDatalossReq : UInt8 := 0x01

/-- `LN_INIT_LF_ROUTE_SYNC`. -/
def lnInitLfRouteSync : UInt8 := 0x08

/-- The places that a scan reads up to the first byte with an even bit, and whether there is one. -/
structure Scan where
  found : Bool
  read : List Nat
deriving DecidableEq, Repr

/-- A loop over bytes that stops at the first one with an even bit. -/
def scanEven (byteAt : Nat → UInt8) : List Nat → Scan
  | [] => ⟨false, []⟩
  | lp :: rest =>
      if byteAt lp &&& evenMask ≠ 0 then ⟨true, [lp]⟩
      else
        let scan := scanEven byteAt rest
        ⟨scan.found, lp :: scan.read⟩

theorem scanEven_found (byteAt : Nat → UInt8) (places : List Nat) :
    (scanEven byteAt places).found = true ↔ ∃ lp ∈ places, byteAt lp &&& evenMask ≠ 0 := by
  induction places with
  | nil => simp [scanEven]
  | cons lp rest ih =>
      by_cases heven : byteAt lp &&& evenMask = 0
      · simp [scanEven, heven, ih]
      · simp [scanEven, heven]

theorem scanEven_read_subset (byteAt : Nat → UInt8) (places : List Nat) :
    (scanEven byteAt places).read ⊆ places := by
  induction places with
  | nil => simp [scanEven]
  | cons lp rest ih =>
      by_cases heven : byteAt lp &&& evenMask = 0
      · simpa [scanEven, heven] using List.subset_cons_of_subset lp ih
      · simp [scanEven, heven]

/-- A place is read when no place before it stops the scan. -/
theorem mem_scanEven_read {byteAt : Nat → UInt8} {before after : List Nat} {lp : Nat}
    (hbefore : ∀ place ∈ before, byteAt place &&& evenMask = 0) :
    lp ∈ (scanEven byteAt (before ++ lp :: after)).read := by
  induction before with
  | nil =>
      by_cases heven : byteAt lp &&& evenMask = 0
      · simp [scanEven, heven]
      · simp [scanEven, heven]
  | cons place rest ih =>
      have hplace := hbefore place List.mem_cons_self
      have hrest := ih fun place hmem => hbefore place (List.mem_cons_of_mem _ hmem)
      simp [scanEven, hplace, hrest]

/-! ### `recv_init` -/

/-- The errors that `recv_init` leaves. -/
inductive InitErr
  | msgInit
  | invFeature
deriving DecidableEq, Repr

/-- `ln_self_t`, as far as `recv_init` uses it. -/
structure InitSelf where
  initFlag : ExchangeFlag
  lfeatureRemote : UInt8
  channelId : Bytes
  err : Option (InitErr × String) := none
deriving DecidableEq, Repr

/-- What `recv_init` hands to the callback. -/
inductive InitEffect
  | sendReq (error : ErrorMsg)
  | initRecv (initialRoutingSync : Bool)
deriving DecidableEq, Repr

/-- How `recv_init` ends, and at which places it has looked at the two vectors. -/
structure InitOutcome where
  ret : Bool
  self : InitSelf
  effects : List InitEffect := []
  globalRead : List Nat := []
  localRead : List Nat := []
deriving DecidableEq, Repr

/-- `M_SET_ERR`. -/
def InitSelf.setErr (self : InitSelf) (err : InitErr) (text : String) : InitSelf :=
  { self with err := some (err, text) }

/-- What stands at a place behind the start of a vector; the heap is not the vector's any more
from its end on. -/
def memoryAt (vector : Bytes) (heap : Nat → UInt8) (place : Nat) : UInt8 :=
  vector.getD place (heap place)

/-- The rest of `recv_init`, once both vectors are there. -/
def recvInitFeatures (heap : Nat → UInt8) (self : InitSelf) (msg : InitMsg) : InitOutcome :=
  let reject := self.setErr .invFeature "init error"
  let globals := scanEven (memoryAt msg.globalfeatures heap)
    (List.range msg.globalfeatures.length)
  if globals.found then
    { ret := false, self := reject, globalRead := globals.read }
  else
    match msg.localfeatures with
    | [] =>
        { ret := true
          self := { self with
            lfeatureRemote := 0x00
            initFlag := { self.initFlag with recv := true } }
          effects := [.initRecv false]
          globalRead := globals.read }
    | first :: _ =>
        let flag := first &&& ~~~lnInitLfOptDatalossReq
        if flag &&& evenMask ≠ 0 then
          { ret := false, self := reject, globalRead := globals.read, localRead := [0] }
        else
          -- the bytes after the first are looked up in `globalfeatures`
          let others := scanEven (memoryAt msg.globalfeatures heap)
            (List.range' 1 (msg.localfeatures.length - 1))
          let globalRead := globals.read ++ others.read
          if others.found then
            { ret := false, self := reject, globalRead, localRead := [0] }
          else
            { ret := true
              self := { self with
                lfeatureRemote := first
                initFlag := { self.initFlag with recv := true } }
              effects := [.initRecv (first &&& lnInitLfRouteSync ≠ 0)]
              globalRead, localRead := [0] }

/-- `recv_init`. -/
def recvInit (heap : Nat → UInt8) (self : InitSelf) (data : Bytes) : Except Fault InitOutcome :=
  if self.initFlag.recv then
    let text := "multiple init receive"
    .ok
      { ret := false
        self := self.setErr .msgInit text
        effects := [.sendReq ⟨self.channelId, text.toUTF8.toList⟩] }
  else
    match lnMsgInitRead.run data with
    | .fault reason => .error reason
    | .refused _ => .ok { ret := false, self := self.setErr .invFeature "init error" }
    | .done msg _ => .ok (recvInitFeatures heap self msg)

/-! ### What is accepted -/

/-- A bit at an even place is set. -/
def EvenBitSet (byte : UInt8) : Prop := ∃ bit, bit % 2 = 0 ∧ byte.toNat.testBit bit = true

theorem testBit_lt {byte : UInt8} {bit : Nat} (hset : byte.toNat.testBit bit = true) : bit < 8 := by
  by_contra hlarge
  have hbound : byte.toNat < 2 ^ bit :=
    byte.toNat_lt.trans_le (Nat.pow_le_pow_right (by decide) (Nat.not_lt.mp hlarge))
  rw [Nat.testBit_lt_two_pow hbound] at hset
  cases hset

theorem and_evenMask_iff (byte : UInt8) : byte &&& evenMask ≠ 0 ↔ EvenBitSet byte := by
  have hall : ∀ value : Fin 256, (value.val &&& 0x55 ≠ 0) ↔
      ∃ bit : Fin 8, bit.val % 2 = 0 ∧ value.val.testBit bit.val = true := by
    decide +kernel
  have hbyte := hall ⟨byte.toNat, byte.toNat_lt⟩
  have hmask : byte &&& evenMask ≠ 0 ↔ byte.toNat &&& 0x55 ≠ 0 := by
    rw [Ne, ← UInt8.toNat_inj, UInt8.toNat_and]
    rfl
  rw [hmask, hbyte]
  constructor
  · rintro ⟨bit, heven, hset⟩
    exact ⟨bit.val, heven, hset⟩
  · rintro ⟨bit, heven, hset⟩
    exact ⟨⟨bit, testBit_lt hset⟩, heven, hset⟩

/-- An even bit other than `option_data_loss_protect` in the first byte of the local features. -/
def UnknownFirst (byte : UInt8) : Prop :=
  ∃ bit, bit % 2 = 0 ∧ bit ≠ 0 ∧ byte.toNat.testBit bit = true

theorem and_not_datalossReq_iff (byte : UInt8) :
    byte &&& ~~~lnInitLfOptDatalossReq &&& evenMask ≠ 0 ↔ UnknownFirst byte := by
  have hall : ∀ value : Fin 256, (value.val &&& 0xfe &&& 0x55 ≠ 0) ↔
      ∃ bit : Fin 8, bit.val % 2 = 0 ∧ bit.val ≠ 0 ∧ value.val.testBit bit.val = true := by
    decide +kernel
  have hbyte := hall ⟨byte.toNat, byte.toNat_lt⟩
  have hmask : byte &&& ~~~lnInitLfOptDatalossReq &&& evenMask ≠ 0 ↔
      byte.toNat &&& 0xfe &&& 0x55 ≠ 0 := by
    rw [Ne, ← UInt8.toNat_inj, UInt8.toNat_and, UInt8.toNat_and]
    rfl
  rw [hmask, hbyte]
  constructor
  · rintro ⟨bit, heven, hother, hset⟩
    exact ⟨bit.val, heven, hother, hset⟩
  · rintro ⟨bit, heven, hother, hset⟩
    exact ⟨⟨bit, testBit_lt hset⟩, heven, hother, hset⟩

/-- Only odd bits and `option_data_loss_protect` are set. -/
structure InitMsg.Known (msg : InitMsg) : Prop where
  global : ∀ byte ∈ msg.globalfeatures, ¬ EvenBitSet byte
  first : ∀ byte ∈ msg.localfeatures.head?, ¬ UnknownFirst byte
  others : ∀ byte ∈ msg.localfeatures.tail, ¬ EvenBitSet byte

/-- An `init` is accepted if and only if it is the first one and its features are known, both
vectors are read inside, and a refusal leaves the flags. -/
structure Negotiated (before : InitSelf) (data : Bytes) (outcome : InitOutcome) : Prop where
  accepted : outcome.ret = true ↔ before.initFlag.recv = false ∧
    ∃ msg pos, lnMsgInitRead.run data = .done msg pos ∧ msg.Known
  inside : ∀ msg pos, lnMsgInitRead.run data = .done msg pos →
    (∀ place ∈ outcome.globalRead, place < msg.globalfeatures.length) ∧
      ∀ place ∈ outcome.localRead, place < msg.localfeatures.length
  unchanged : outcome.ret = false → outcome.self.initFlag = before.initFlag ∧
    outcome.self.lfeatureRemote = before.lfeatureRemote

/-- The scans stop before the second byte of the local features, or there are no more local bytes
than global ones and none after the first has an even bit. -/
def InitMsg.ScannedRight (msg : InitMsg) : Prop :=
  (∃ byte ∈ msg.globalfeatures, EvenBitSet byte) ∨
    (∃ byte ∈ msg.localfeatures.head?, UnknownFirst byte) ∨
    ((msg.localfeatures.length ≤ 1 ∨
        msg.localfeatures.length ≤ msg.globalfeatures.length) ∧
      ∀ byte ∈ msg.localfeatures.tail, ¬ EvenBitSet byte)

section Features

variable {heap : Nat → UInt8} {self : InitSelf} {msg : InitMsg}

theorem memoryAt_inside {vector : Bytes} {place : Nat} (hinside : place < vector.length) :
    memoryAt vector heap place ∈ vector := by
  rw [memoryAt, List.getD_eq_getElem _ _ hinside]
  exact List.getElem_mem hinside

theorem globals_found (heap : Nat → UInt8) (vector : Bytes) :
    (scanEven (memoryAt vector heap) (List.range vector.length)).found = true ↔
      ∃ byte ∈ vector, EvenBitSet byte := by
  rw [scanEven_found]
  constructor
  · rintro ⟨place, hmem, heven⟩
    exact ⟨_, memoryAt_inside (List.mem_range.mp hmem), (and_evenMask_iff _).mp heven⟩
  · rintro ⟨byte, hmem, heven⟩
    obtain ⟨place, hplace, rfl⟩ := List.mem_iff_getElem.mp hmem
    refine ⟨place, List.mem_range.mpr hplace, ?_⟩
    rw [memoryAt, List.getD_eq_getElem _ _ hplace]
    exact (and_evenMask_iff _).mpr heven

theorem globals_inside (heap : Nat → UInt8) (vector : Bytes) :
    ∀ place ∈ (scanEven (memoryAt vector heap) (List.range vector.length)).read,
      place < vector.length := by
  intro place hmem
  exact List.mem_range.mp (scanEven_read_subset _ _ hmem)

/-- Global features without an even bit never stop the second scan. -/
theorem clean_inside {vector : Bytes} (hclean : ∀ byte ∈ vector, ¬ EvenBitSet byte) {place : Nat}
    (hplace : place < vector.length) : memoryAt vector heap place &&& evenMask = 0 := by
  by_contra heven
  exact hclean _ (memoryAt_inside hplace) ((and_evenMask_iff _).mp heven)

/-- What the second scan does when the first has found nothing. -/
theorem others_of_short {vector : Bytes} (hclean : ∀ byte ∈ vector, ¬ EvenBitSet byte)
    {len : Nat} (hshort : len ≤ 1 ∨ len ≤ vector.length) :
    (scanEven (memoryAt vector heap) (List.range' 1 (len - 1))).found = false ∧
      ∀ place ∈ (scanEven (memoryAt vector heap) (List.range' 1 (len - 1))).read,
        place < vector.length := by
  have hplaces : ∀ place ∈ List.range' 1 (len - 1), place < vector.length := by
    intro place hmem
    have hrange := List.mem_range'_1.mp hmem
    omega
  constructor
  · rw [Bool.eq_false_iff, ne_eq, scanEven_found]
    rintro ⟨place, hmem, heven⟩
    exact heven (clean_inside hclean (hplaces place hmem))
  · intro place hmem
    exact hplaces place (scanEven_read_subset _ _ hmem)

theorem others_of_long {vector : Bytes} (hclean : ∀ byte ∈ vector, ¬ EvenBitSet byte)
    {len : Nat} (hmany : 1 < len) (hlong : vector.length < len) :
    max 1 vector.length ∈
      (scanEven (memoryAt vector heap) (List.range' 1 (len - 1))).read := by
  have hsplit : List.range' 1 (len - 1) = List.range' 1 (max 1 vector.length - 1) ++
      max 1 vector.length :: List.range' (max 1 vector.length + 1)
        (len - 1 - max 1 vector.length) := by
    have htail : max 1 vector.length :: List.range' (max 1 vector.length + 1)
        (len - 1 - max 1 vector.length) =
          List.range' (max 1 vector.length) (len - max 1 vector.length) := by
      rw [← List.range'_succ]
      congr 1
      omega
    have hstart : max 1 vector.length = 1 + (max 1 vector.length - 1) := by omega
    rw [htail]
    nth_rewrite 2 [hstart]
    rw [List.range'_append_1]
    congr 1
    omega
  rw [hsplit]
  apply mem_scanEven_read
  intro place hmem
  have hrange := List.mem_range'_1.mp hmem
  exact clean_inside hclean (by omega)

/-- The features decide, and both vectors are read inside. -/
structure InitMsg.Judged (msg : InitMsg) (outcome : InitOutcome) : Prop where
  accepted : outcome.ret = true ↔ msg.Known
  globalRead : ∀ place ∈ outcome.globalRead, place < msg.globalfeatures.length
  localRead : ∀ place ∈ outcome.localRead, place < msg.localfeatures.length

theorem negotiated_iff {data : Bytes} {pos : Nat} {outcome : InitOutcome}
    (hread : lnMsgInitRead.run data = .done msg pos) (hfirst : self.initFlag.recv = false)
    (hunchanged : outcome.ret = false → outcome.self.initFlag = self.initFlag ∧
      outcome.self.lfeatureRemote = self.lfeatureRemote) :
    Negotiated self data outcome ↔ msg.Judged outcome := by
  have hsame : ∀ msg' pos', lnMsgInitRead.run data = .done msg' pos' → msg' = msg := by
    intro msg' pos' hread'
    obtain ⟨rfl, -⟩ := (Result.done.injEq ..).mp (hread.symm.trans hread')
    rfl
  have hknown : (self.initFlag.recv = false ∧
      ∃ msg pos, lnMsgInitRead.run data = .done msg pos ∧ msg.Known) ↔ msg.Known := by
    constructor
    · rintro ⟨-, msg', pos', hread', hknown⟩
      rwa [hsame msg' pos' hread'] at hknown
    · intro hknown
      exact ⟨hfirst, msg, pos, hread, hknown⟩
  constructor
  · intro hnegotiated
    have hinside := hnegotiated.inside msg pos hread
    exact ⟨hnegotiated.accepted.trans hknown, hinside.1, hinside.2⟩
  · intro hjudged
    refine ⟨hjudged.accepted.trans hknown.symm, fun msg' pos' hread' => ?_, hunchanged⟩
    rw [hsame msg' pos' hread']
    exact ⟨hjudged.globalRead, hjudged.localRead⟩

theorem recvInitFeatures_unchanged (hrejected : (recvInitFeatures heap self msg).ret = false) :
    (recvInitFeatures heap self msg).self.initFlag = self.initFlag ∧
      (recvInitFeatures heap self msg).self.lfeatureRemote = self.lfeatureRemote := by
  cases hlocal : msg.localfeatures with
  | nil =>
      simp only [recvInitFeatures, hlocal] at hrejected ⊢
      split_ifs at hrejected ⊢
      exact ⟨rfl, rfl⟩
  | cons first rest =>
      simp only [recvInitFeatures, hlocal] at hrejected ⊢
      split_ifs at hrejected ⊢
      · exact ⟨rfl, rfl⟩
      · exact ⟨rfl, rfl⟩
      · exact ⟨rfl, rfl⟩

/-- The first scan stops. -/
theorem judged_of_global (hglobal : ∃ byte ∈ msg.globalfeatures, EvenBitSet byte) :
    msg.Judged (recvInitFeatures heap self msg) := by
  have hfound := (globals_found heap msg.globalfeatures).mpr hglobal
  rw [recvInitFeatures, if_pos hfound]
  refine ⟨iff_of_false Bool.false_ne_true fun hknown => ?_,
    globals_inside heap msg.globalfeatures, by simp⟩
  obtain ⟨byte, hmem, heven⟩ := hglobal
  exact hknown.global byte hmem heven

section Clean

variable (hclean : ∀ byte ∈ msg.globalfeatures, ¬ EvenBitSet byte)

include hclean

theorem globals_not_found : ¬ (scanEven (memoryAt msg.globalfeatures heap)
    (List.range msg.globalfeatures.length)).found = true := by
  rw [globals_found]
  rintro ⟨byte, hmem, heven⟩
  exact hclean byte hmem heven

/-- There are no local features. -/
theorem judged_of_empty (hempty : msg.localfeatures = []) :
    msg.Judged (recvInitFeatures heap self msg) := by
  rw [recvInitFeatures, if_neg (globals_not_found hclean), hempty]
  refine ⟨iff_of_true rfl ⟨hclean, ?_, ?_⟩, globals_inside heap msg.globalfeatures, by simp⟩
  · simp [hempty]
  · simp [hempty]

variable {first : UInt8} {rest : Bytes} (hlocal : msg.localfeatures = first :: rest)

include hlocal

theorem known_iff : msg.Known ↔ ¬ UnknownFirst first ∧ ∀ byte ∈ rest, ¬ EvenBitSet byte := by
  constructor
  · intro hknown
    have hfirst := hknown.first
    have hothers := hknown.others
    simp only [hlocal, List.head?_cons, List.tail_cons, Option.mem_def, Option.some.injEq,
      forall_eq'] at hfirst hothers
    exact ⟨hfirst, hothers⟩
  · rintro ⟨hfirst, hothers⟩
    refine ⟨hclean, ?_, ?_⟩
    · simpa [hlocal] using hfirst
    · simpa [hlocal] using hothers

/-- The first byte of the local features is not known. -/
theorem judged_of_first (hunknown : UnknownFirst first) :
    msg.Judged (recvInitFeatures heap self msg) := by
  have hflag := (and_not_datalossReq_iff first).mpr hunknown
  rw [recvInitFeatures, if_neg (globals_not_found hclean)]
  simp only [hlocal, if_pos hflag]
  refine ⟨iff_of_false Bool.false_ne_true fun hknown => ?_,
    globals_inside heap msg.globalfeatures, by simp [hlocal]⟩
  exact ((known_iff hclean hlocal).mp hknown).1 hunknown

/-- The second scan looks at the global features. -/
theorem judged_iff_of_known (hfirst : ¬ UnknownFirst first) :
    msg.Judged (recvInitFeatures heap self msg) ↔
      (msg.localfeatures.length ≤ 1 ∨ msg.localfeatures.length ≤ msg.globalfeatures.length) ∧
        ∀ byte ∈ rest, ¬ EvenBitSet byte := by
  have hflag := mt (and_not_datalossReq_iff first).mp hfirst
  let others := scanEven (memoryAt msg.globalfeatures heap)
    (List.range' 1 (msg.localfeatures.length - 1))
  have hread : (recvInitFeatures heap self msg).globalRead =
      (scanEven (memoryAt msg.globalfeatures heap)
        (List.range msg.globalfeatures.length)).read ++ others.read := by
    rw [recvInitFeatures, if_neg (globals_not_found hclean)]
    simp only [hlocal, if_neg hflag]
    split_ifs <;> simp only [others, hlocal]
  have hret : (recvInitFeatures heap self msg).ret = !others.found := by
    rw [recvInitFeatures, if_neg (globals_not_found hclean)]
    simp only [hlocal, if_neg hflag]
    split_ifs with hfound
    · simp only [others, hlocal, hfound, Bool.not_true]
    · simp only [others, hlocal, Bool.eq_false_iff.mpr hfound, Bool.not_false]
  have hlocalRead : (recvInitFeatures heap self msg).localRead = [0] := by
    rw [recvInitFeatures, if_neg (globals_not_found hclean)]
    simp only [hlocal, if_neg hflag]
    split_ifs <;> rfl
  constructor
  · intro hjudged
    have hshort : msg.localfeatures.length ≤ 1 ∨
        msg.localfeatures.length ≤ msg.globalfeatures.length := by
      by_contra hlong
      push Not at hlong
      have hmem := @others_of_long heap _ hclean _ hlong.1 hlong.2
      have hbound := hjudged.globalRead _ (hread ▸ List.mem_append_right _ hmem)
      omega
    have haccepted := hjudged.accepted.mp
    rw [hret, (others_of_short hclean hshort).1] at haccepted
    exact ⟨hshort, ((known_iff hclean hlocal).mp (haccepted rfl)).2⟩
  · rintro ⟨hshort, hrest⟩
    obtain ⟨hfound, hinside⟩ := @others_of_short heap _ hclean _ hshort
    refine ⟨?_, ?_, ?_⟩
    · rw [hret, hfound]
      exact iff_of_true rfl ((known_iff hclean hlocal).mpr ⟨hfirst, hrest⟩)
    · rw [hread]
      intro place hmem
      rcases List.mem_append.mp hmem with hglobal | hother
      · exact globals_inside heap _ place hglobal
      · exact hinside place hother
    · rw [hlocalRead]
      simp [hlocal]

end Clean

/-- The scans judge the features if and only if nothing hangs on the local bytes after the first. -/
theorem judged_iff : msg.Judged (recvInitFeatures heap self msg) ↔ msg.ScannedRight := by
  by_cases hglobal : ∃ byte ∈ msg.globalfeatures, EvenBitSet byte
  · exact iff_of_true (judged_of_global hglobal) (.inl hglobal)
  · have hclean : ∀ byte ∈ msg.globalfeatures, ¬ EvenBitSet byte :=
      fun byte hmem heven => hglobal ⟨byte, hmem, heven⟩
    cases hlocal : msg.localfeatures with
    | nil =>
        refine iff_of_true (judged_of_empty hclean hlocal) (.inr (.inr ⟨.inl ?_, ?_⟩))
        · simp [hlocal]
        · simp [hlocal]
    | cons first rest =>
        by_cases hunknown : UnknownFirst first
        · exact iff_of_true (judged_of_first hclean hlocal hunknown)
            (.inr (.inl ⟨first, by simp [hlocal], hunknown⟩))
        · rw [judged_iff_of_known hclean hlocal hunknown, InitMsg.ScannedRight, hlocal]
          simp [hglobal, hunknown]

end Features

/-- `recv_init` negotiates the features if and only if it refuses a second `init`, or the scans
stop before the second byte of the local features or find there what they should. -/
theorem negotiates_iff (heap : Nat → UInt8) (self : InitSelf) (data : Bytes) :
    (∃ outcome, recvInit heap self data = .ok outcome ∧ Negotiated self data outcome) ↔
      (self.initFlag.recv = true ∨
        ∀ msg pos, lnMsgInitRead.run data = .done msg pos → msg.ScannedRight) := by
  by_cases hsecond : self.initFlag.recv = true
  · refine iff_of_true ⟨_, by rw [recvInit, if_pos hsecond], ?_, ?_, fun _ => ⟨rfl, rfl⟩⟩
      (.inl hsecond)
    · simp [hsecond]
    · simp
  · have hfirst := Bool.eq_false_iff.mpr hsecond
    rw [recvInit, if_neg hsecond]
    have hnofault := lnMsgInitRead_wp data
    cases hread : lnMsgInitRead.run data with
    | fault reason =>
        have hresult : lnMsgInitRead data 0 = .fault reason := hread
        rw [wp, hresult] at hnofault
        exact hnofault.elim
    | refused left =>
        refine iff_of_true ⟨_, rfl, ?_, by simp, fun _ => ⟨rfl, rfl⟩⟩ (.inr (by simp))
        simp [hread]
    | done msg pos =>
        have hnegotiated : Negotiated self data (recvInitFeatures heap self msg) ↔
            msg.ScannedRight :=
          (negotiated_iff hread hfirst recvInitFeatures_unchanged).trans judged_iff
        simp [hnegotiated, hsecond]

/-- An even bit in the second byte of the local features is accepted when the global features have
a second byte without one. -/
theorem notNegotiated_secondByte :
    ¬ ∀ (heap : Nat → UInt8) (self : InitSelf) (data : Bytes),
      ∃ outcome, recvInit heap self data = .ok outcome ∧ Negotiated self data outcome := by
  intro hall
  obtain ⟨outcome, hrecv, hnegotiated⟩ :=
    hall (fun _ => 0) ⟨{}, 0, [], none⟩ [0, 16, 0, 2, 0, 0, 0, 2, 2, 1]
  have hread : lnMsgInitRead.run [0, 16, 0, 2, 0, 0, 0, 2, 2, 1] = .done ⟨[0, 0], [2, 1]⟩ 10 := by
    decide
  have hret : ∀ outcome, recvInit (fun _ => 0) ⟨{}, 0, [], none⟩
      [0, 16, 0, 2, 0, 0, 0, 2, 2, 1] = .ok outcome → outcome.ret = true := by
    intro outcome hrecv
    obtain rfl := Except.ok.inj hrecv
    decide
  obtain ⟨-, msg, pos, hread', hknown⟩ := hnegotiated.accepted.mp (hret outcome hrecv)
  obtain ⟨rfl, -⟩ := (Result.done.injEq ..).mp (hread.symm.trans hread')
  exact hknown.others 1 (by decide) ⟨0, by decide, by decide⟩

end Ptarmigan
