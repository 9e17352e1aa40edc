/-
Taking back the outputs of a revoked commitment transaction: when the arrays hold what spends
every output.
-/
import Ptarmigan.ClosedTx

namespace Ptarmigan

variable {crypto : Crypto} {chan : LnSelf} {phashSearch : Bytes → Option PhashEntry}

/-! ### The commitment number -/

theorem masked_flag (flag : UInt32) (hflag : flag &&& 0xffffff = 0) (value : UInt64) :
    ((flag ||| (value &&& 0xffffff).toUInt32) &&& 0xffffff).toUInt64 = value &&& 0xffffff := by
  apply UInt64.toNat_inj.mp
  have hnat : flag.toNat &&& 0xffffff = 0 := by
    have hzero := congrArg UInt32.toNat hflag
    simpa using hzero
  have hmask : (0xffffff : Nat) = 2 ^ 24 - 1 := rfl
  simp only [UInt32.toNat_toUInt64, UInt32.toNat_and, UInt32.toNat_or, UInt64.toNat_toUInt32,
    UInt64.toNat_and, UInt32.reduceToNat, UInt64.reduceToNat]
  rw [Nat.and_or_distrib_right, hnat, Nat.zero_or]
  simp only [hmask, Nat.and_two_pow_sub_one_eq_mod]
  omega

/-- The 48 bits that sequence and locktime carry. -/
theorem commitNum_bits {value : UInt64} (hvalue : value.toNat < 2 ^ 48) :
    (((0x80000000 : UInt32) ||| (value >>> 24 &&& 0xffffff).toUInt32) &&& 0xffffff).toUInt64 <<<
        24 |||
      (((0x20000000 : UInt32) ||| (value &&& 0xffffff).toUInt32) &&& 0xffffff).toUInt64 =
        value := by
  rw [masked_flag _ rfl, masked_flag _ rfl]
  apply UInt64.toNat_inj.mp
  have hmask : (0xffffff : Nat) = 2 ^ 24 - 1 := rfl
  simp only [UInt64.toNat_or, UInt64.toNat_shiftLeft, UInt64.toNat_and, UInt64.toNat_shiftRight,
    UInt64.reduceToNat, hmask, Nat.and_two_pow_sub_one_eq_mod, Nat.shiftRight_eq_div_pow,
    Nat.shiftLeft_eq]
  have hhigh : value.toNat / 2 ^ (24 % 64) % 2 ^ 24 = value.toNat / 2 ^ 24 := by
    rw [Nat.mod_eq_of_lt]
    simp only [Nat.reduceMod]
    omega
  rw [hhigh, Nat.mod_eq_of_lt (by simp only [Nat.reduceMod]; omega)]
  have hlow : value.toNat % 2 ^ 24 < 2 ^ 24 := Nat.mod_lt _ (by decide)
  have hor := Nat.two_pow_add_eq_or_of_lt hlow (value.toNat / 2 ^ 24)
  simp only [Nat.reduceMod]
  rw [Nat.mul_comm, ← hor]
  exact Nat.div_add_mod _ _

/-- `calc_commit_num` recovers the number of any commitment transaction of the channel. -/
theorem calcCommitNum_committx {cmt : LnScriptCommittx} {isLocal : Bool} {commitNum : UInt64}
    (hobscured : cmt.obscured = chan.obscured ^^^ commitNum)
    (hchan : chan.obscured.toNat < 2 ^ 48) (hnum : commitNum.toNat < 2 ^ 48) :
    calcCommitNum chan (lnScriptCommittxCreate crypto cmt isLocal).tx = commitNum := by
  have hbound : cmt.obscured.toNat < 2 ^ 48 := by
    rw [hobscured, UInt64.toNat_xor]
    exact Nat.xor_lt_two_pow hchan hnum
  have hbits := commitNum_bits hbound
  simp only [calcCommitNum, lnScriptCommittxCreate]
  rw [hbits, hobscured, UInt64.xor_comm, ← UInt64.xor_assoc, UInt64.xor_self, UInt64.zero_xor]

/-! ### Revoked commitment transactions -/

/-- A commitment transaction of the peer that it has revoked: it was signed in the state
`signer`, with the point of a secret that has been received for its number since. -/
structure RevokedCommit (crypto : Crypto) (chan : LnSelf) where
  signer : LnSelf
  commitNum : UInt64
  dustLimitSat : UInt64
  secret : Bytes
  commitNum_lt : commitNum.toNat < 2 ^ 48
  obscured_lt : chan.obscured.toNat < 2 ^ 48
  received : lnDerkeyStorageGetSecret crypto chan.peerStorage (lnSecindexInit - commitNum) =
    some secret
  obscured : signer.obscured = chan.obscured
  toSelfDelay : signer.commitLocal.toSelfDelay = chan.commitLocal.toSelfDelay
  ownKeys : ({ signer.fundingLocal.pubkeys with perCommit := [] } : Fundkeys) =
    { chan.fundingLocal.pubkeys with perCommit := [] }
  peerKeys : signer.fundingRemote.pubkeys =
    { chan.fundingRemote.pubkeys with perCommit := crypto.pub secret }
  derived : signer.fundingRemote.scriptpubkeys =
    (LnSelf.updateScriptkeys crypto signer).fundingRemote.scriptpubkeys
  /-- It could be signed. -/
  valid : (buildToRemote crypto signer commitNum dustLimitSat).committx.tx.isValid = true

namespace RevokedCommit

variable (commit : RevokedCommit crypto chan)

def build : CommitBuild :=
  buildToRemote crypto commit.signer commit.commitNum commit.dustLimitSat

def tx : BtcTx :=
  commit.build.committx.tx

/-- The outputs, with what they pay. -/
def vout : List BtcVout :=
  commit.build.committx.vout

def keys : Scriptkeys :=
  commit.signer.fundingRemote.scriptpubkeys

/-- The shachain index of the commitment. -/
def index : UInt64 :=
  lnSecindexInit - commit.commitNum

/-- The witness script of an output; that of an HTLC, as that of to_local, can be spent with
the revocation key of the commitment. -/
def witScript (out : BtcVout) : Option Bytes :=
  match out.opt with
  | .tolocal => some commit.build.bufWs
  | .htlc info => some info.script
  | .toremote => none

/-- What the phash database finds for the HTLC outputs is what was saved when they were
signed. -/
def PhashSaved (phashSearch : Bytes → Option PhashEntry) : Prop :=
  ∀ out ∈ commit.vout, ∀ info, out.opt = .htlc info →
    ∀ entry, phashSearch out.script.bytes = some entry →
      entry.type = info.type ∧ entry.script crypto commit.keys = info.script

/-- It has an output to the peer itself. -/
def HasToLocal : Prop :=
  ∃ out ∈ commit.vout, out.opt = .tolocal

/-- The phash database has an entry for every HTLC output. -/
def PhashKept (phashSearch : Bytes → Option PhashEntry) : Prop :=
  ∀ out ∈ commit.vout, ∀ info, out.opt = .htlc info →
    (phashSearch out.script.bytes).isSome = true

/-- No two HTLC outputs have the same script. -/
def DistinctHtlcs : Prop :=
  ∀ (index other : Nat) (out out' : BtcVout) (info info' : LnScriptHtlcinfo),
    commit.vout[index]? = some out → commit.vout[other]? = some out' →
      out.opt = .htlc info → out'.opt = .htlc info' →
        out.script.bytes = out'.script.bytes → index = other

/-- The arrays are written within their bounds, and hold what spends every output that is not
a to_remote output. -/
def Stored (made : RevokedBuild) : Prop :=
  (∀ index ∈ made.writes, index < made.revoked.num.toNat) ∧
    made.revoked.sec = commit.secret ∧
    ∀ out ∈ commit.vout, ∀ wit, commit.witScript out = some wit →
      ∃ index < made.revoked.num.toNat, made.revoked.vout index = out.script.bytes ∧
        made.revoked.wit index = wit

end RevokedCommit

/-- The lengths of digests. -/
structure DigestSizes (crypto : Crypto) : Prop where
  sha256 : ∀ bytes, (crypto.sha256 bytes).length = 32
  hash160 : ∀ bytes, (crypto.hash160 bytes).length = 20

/-- The digest of the to_local script is not that of an HTLC script. -/
def RevokedCommit.NoCollision (commit : RevokedCommit crypto chan) : Prop :=
  ∀ out ∈ commit.vout, ∀ info, out.opt = .htlc info →
    crypto.sha256 info.script = crypto.sha256 commit.build.bufWs →
      info.script = commit.build.bufWs

/-! ### The loop of `ln_close_remoterevoked` -/

section Loop

variable {keys : Scriptkeys} {tolocal wit : Bytes}

/-- The entries found for the HTLC scripts among the outputs. -/
def foundEntries (phashSearch : Bytes → Option PhashEntry) (tolocal : Bytes)
    (scripts : List Bytes) : List PhashEntry :=
  scripts.filterMap fun script =>
    if script.length = btcSzWitprogP2wpkh ∨ script = tolocal then none else phashSearch script

theorem foundEntries_append (phashSearch : Bytes → Option PhashEntry)
    (tolocal : Bytes) (scripts scripts' : List Bytes) :
    foundEntries phashSearch tolocal (scripts ++ scripts') =
      foundEntries phashSearch tolocal scripts ++ foundEntries phashSearch tolocal scripts' :=
  List.filterMap_append ..

/-- What the loop has done for the outputs so far. -/
structure Looped (crypto : Crypto) (keys : Scriptkeys)
    (phashSearch : Bytes → Option PhashEntry) (tolocal wit : Bytes) (scripts : List Bytes)
    (made : RevokedBuild) : Prop where
  htlcCnt : made.htlcCnt = (foundEntries phashSearch tolocal scripts).length
  first : made.revoked.vout 0 = tolocal ∧ made.revoked.wit 0 = wit
  second : made.revoked.vout 1 = [] ∨
    (made.revoked.vout 1).length = btcSzWitprogP2wpkh
  entries : ∀ (pos : Nat) (entry : PhashEntry),
    (foundEntries phashSearch tolocal scripts)[pos]? = some entry →
      made.revoked.vout (2 + pos) = (crypto.p2wsh (entry.script crypto keys)).bytes ∧
        made.revoked.wit (2 + pos) = entry.script crypto keys
  beyond : ∀ pos, (foundEntries phashSearch tolocal scripts).length ≤ pos →
    made.revoked.vout (2 + pos) = []
  writes : ∀ index, index ∈ made.writes ↔ index = 0 ∨
    (index = 1 ∧ ∃ script ∈ scripts, script.length = btcSzWitprogP2wpkh) ∨
      (2 ≤ index ∧ index < 2 + (foundEntries phashSearch tolocal scripts).length)

section Looped

variable {scripts : List Bytes} {script : Bytes} {made : RevokedBuild}

/-- An output that is neither to a public key hash nor found leaves everything as it is. -/
theorem Looped.skip (hlooped : Looped crypto keys phashSearch tolocal wit scripts made)
    (hnone : foundEntries phashSearch tolocal [script] = [])
    (hlength : script.length ≠ btcSzWitprogP2wpkh) :
    Looped crypto keys phashSearch tolocal wit (scripts ++ [script]) made := by
  have happend := foundEntries_append phashSearch tolocal scripts [script]
  rw [hnone, List.append_nil] at happend
  constructor
  · rw [happend]
    exact hlooped.htlcCnt
  · exact hlooped.first
  · exact hlooped.second
  · rw [happend]
    exact hlooped.entries
  · rw [happend]
    exact hlooped.beyond
  · intro index
    rw [happend, hlooped.writes]
    simp [hlength]

/-- An output to a public key hash goes to the second place. -/
theorem Looped.toremote (hlooped : Looped crypto keys phashSearch tolocal wit scripts made)
    (hlength : script.length = btcSzWitprogP2wpkh) (type : Option LnHtlctype) :
    Looped crypto keys phashSearch tolocal wit (scripts ++ [script])
      (made.put lnRcloseIdxToremote script [] type) := by
  have happend := foundEntries_append phashSearch tolocal scripts [script]
  have hnone : foundEntries phashSearch tolocal [script] = [] := by
    simp [foundEntries, hlength]
  rw [hnone, List.append_nil] at happend
  have hne : ∀ pos, 2 + pos ≠ lnRcloseIdxToremote := by
    simp only [lnRcloseIdxToremote]
    omega
  constructor
  · rw [happend]
    exact hlooped.htlcCnt
  · exact hlooped.first
  · exact .inr hlength
  · intro pos entry hentry
    rw [happend] at hentry
    simp only [RevokedBuild.put, Function.update_of_ne (hne pos)]
    exact hlooped.entries pos entry hentry
  · intro pos hpos
    rw [happend] at hpos
    simp only [RevokedBuild.put, Function.update_of_ne (hne pos)]
    exact hlooped.beyond pos hpos
  · intro index
    rw [happend]
    simp only [RevokedBuild.put, List.mem_append, List.mem_singleton, hlooped.writes]
    simp only [lnRcloseIdxToremote]
    constructor
    · rintro ((hzero | ⟨hone, script', hmem, hscript⟩ | hbetween) | hone)
      · exact .inl hzero
      · exact .inr (.inl ⟨hone, script', .inl hmem, hscript⟩)
      · exact .inr (.inr hbetween)
      · exact .inr (.inl ⟨hone, script, .inr rfl, hlength⟩)
    · rintro (hzero | ⟨hone, -⟩ | hbetween)
      · exact .inl (.inl hzero)
      · exact .inr hone
      · exact .inl (.inr (.inr hbetween))

/-- An output that is found goes behind the others that were. -/
theorem Looped.found (hlooped : Looped crypto keys phashSearch tolocal wit scripts made)
    {entry : PhashEntry} (hone : foundEntries phashSearch tolocal [script] = [entry])
    (hlength : script.length ≠ btcSzWitprogP2wpkh) :
    Looped crypto keys phashSearch tolocal wit (scripts ++ [script])
      { made.put (lnRcloseIdxHtlc + made.htlcCnt)
          (crypto.p2wsh (entry.script crypto keys)).bytes (entry.script crypto keys)
          (some entry.type) with
        htlcCnt := made.htlcCnt + 1 } := by
  have happend := foundEntries_append phashSearch tolocal scripts [script]
  rw [hone] at happend
  have hcnt : made.htlcCnt = (foundEntries phashSearch tolocal scripts).length :=
    hlooped.htlcCnt
  simp only [lnRcloseIdxHtlc, RevokedBuild.put, hcnt]
  generalize hbefore : foundEntries phashSearch tolocal scripts = before at *
  have hzero : (0 : Nat) ≠ 2 + before.length := by omega
  have hfirst : (1 : Nat) ≠ 2 + before.length := by omega
  constructor
  · simp [happend]
  · simp only [Function.update_of_ne hzero]
    exact hlooped.first
  · simp only [Function.update_of_ne hfirst]
    exact hlooped.second
  · intro pos found hfound
    rw [happend] at hfound
    by_cases hlast : pos = before.length
    · subst hlast
      rw [List.getElem?_concat_length, Option.some.injEq] at hfound
      subst hfound
      simp
    · have hne : 2 + pos ≠ 2 + before.length := by omega
      simp only [Function.update_of_ne hne]
      have hlt : pos < before.length := by
        have hbound := (List.getElem?_eq_some_iff.mp hfound).1
        rw [List.length_append, List.length_singleton] at hbound
        omega
      rw [List.getElem?_append_left hlt] at hfound
      exact hlooped.entries pos found (hbefore ▸ hfound)
  · intro pos hpos
    rw [happend, List.length_append, List.length_singleton] at hpos
    have hne : 2 + pos ≠ 2 + before.length := by omega
    simp only [Function.update_of_ne hne]
    exact hlooped.beyond pos (by rw [hbefore]; omega)
  · intro index
    rw [happend]
    simp only [List.mem_append, List.mem_singleton, hlooped.writes, hbefore,
      List.length_append, List.length_singleton]
    constructor
    · rintro ((hzero | ⟨hone, script', hmem, hscript⟩ | ⟨hlow, hhigh⟩) | hlast)
      · exact .inl hzero
      · exact .inr (.inl ⟨hone, script', .inl hmem, hscript⟩)
      · exact .inr (.inr ⟨hlow, by omega⟩)
      · exact .inr (.inr ⟨by omega, by omega⟩)
    · rintro (hzero | ⟨hone, script', hmem | rfl, hscript⟩ | ⟨hlow, hhigh⟩)
      · exact .inl (.inl hzero)
      · exact .inl (.inr (.inl ⟨hone, script', hmem, hscript⟩))
      · exact absurd hscript hlength
      · by_cases hlast : index = 2 + before.length
        · exact .inr hlast
        · exact .inl (.inr (.inr ⟨hlow, by omega⟩))

theorem looped_addVout (hlooped : Looped crypto keys phashSearch tolocal wit scripts made)
    (script : Bytes) :
    Looped crypto keys phashSearch tolocal wit (scripts ++ [script])
      (made.addVout crypto keys phashSearch script) := by
  rw [RevokedBuild.addVout]
  by_cases hlength : script.length = btcSzWitprogP2wpkh
  · rw [if_pos hlength]
    exact hlooped.toremote hlength _
  rw [if_neg hlength]
  by_cases hlocal : script = tolocal
  · have hvout : script = made.revoked.vout lnRcloseIdxTolocal :=
      hlocal.trans hlooped.first.1.symm
    rw [if_pos hvout]
    exact hlooped.skip (by simp [foundEntries, hlocal]) hlength
  have hvout : ¬ script = made.revoked.vout lnRcloseIdxTolocal := fun heq =>
    hlocal (heq.trans hlooped.first.1)
  rw [if_neg hvout]
  cases hsearch : phashSearch script with
  | none => exact hlooped.skip (by simp [foundEntries, hlength, hlocal, hsearch]) hlength
  | some entry => exact hlooped.found (by simp [foundEntries, hlength, hlocal, hsearch]) hlength

end Looped

theorem withRevokedKeys_commitLocal (self : LnSelf) (secret : Bytes) (index : UInt64) :
    (self.withRevokedKeys crypto secret index).commitLocal = self.commitLocal :=
  rfl

theorem looped_start (crypto : Crypto) (phashSearch : Bytes → Option PhashEntry)
    (self : LnSelf) (cnt : UInt16) (secret : Bytes) :
    let keys := self.fundingRemote.scriptpubkeys
    let wit := lnScriptCreateTolocal keys.revocation keys.delayed self.commitLocal.toSelfDelay
    Looped crypto keys phashSearch (crypto.p2wsh wit).bytes wit []
      (.start crypto self cnt secret) := by
  have hother : ∀ (vout : Bytes) (pos : Nat), pos ≠ 0 →
      Function.update (fun _ => []) lnRcloseIdxTolocal vout pos = [] := by
    intro vout pos hne
    exact Function.update_of_ne hne ..
  constructor
  · rfl
  · simp only [RevokedBuild.start, RevokedBuild.put]
    exact ⟨Function.update_self .., Function.update_self ..⟩
  · left
    simp only [RevokedBuild.start, RevokedBuild.put]
    exact hother _ 1 Nat.one_ne_zero
  · intro pos entry hentry
    cases hentry
  · intro pos _
    apply hother
    omega
  · intro index
    simp only [RevokedBuild.start, RevokedBuild.put, List.nil_append, List.mem_singleton,
      lnRcloseIdxTolocal]
    constructor
    · exact fun hzero => .inl hzero
    · rintro (hzero | ⟨-, script, hmem, -⟩ | ⟨hlow, hhigh⟩)
      · exact hzero
      · cases hmem
      · simp only [foundEntries, List.filterMap_nil, List.length_nil] at hhigh
        omega

theorem looped_foldl {scripts : List Bytes} :
    ∀ {done : List Bytes} {made : RevokedBuild},
      Looped crypto keys phashSearch tolocal wit done made →
        Looped crypto keys phashSearch tolocal wit (done ++ scripts)
          (scripts.foldl (RevokedBuild.addVout crypto keys phashSearch) made) := by
  induction scripts with
  | nil =>
      intro done made hlooped
      rw [List.append_nil]
      exact hlooped
  | cons script rest ih =>
      intro done made hlooped
      rw [List.foldl_cons, List.append_cons]
      exact ih (looped_addVout hlooped script)

/-- The loop leaves the counters and the secret alone. -/
theorem addVout_counts (crypto : Crypto) (keys : Scriptkeys)
    (phashSearch : Bytes → Option PhashEntry) (made : RevokedBuild) (script : Bytes) :
    let after := (made.addVout crypto keys phashSearch script).revoked
    after.cnt = made.revoked.cnt ∧ after.num = made.revoked.num ∧
      after.sec = made.revoked.sec ∧ after.chk = made.revoked.chk := by
  simp only [RevokedBuild.addVout]
  split_ifs
  · exact ⟨rfl, rfl, rfl, rfl⟩
  · exact ⟨rfl, rfl, rfl, rfl⟩
  · cases phashSearch script with
    | none => exact ⟨rfl, rfl, rfl, rfl⟩
    | some entry => exact ⟨rfl, rfl, rfl, rfl⟩

theorem foldl_addVout_counts (scripts : List Bytes) : ∀ made : RevokedBuild,
    let after := (scripts.foldl (RevokedBuild.addVout crypto keys phashSearch) made).revoked
    after.cnt = made.revoked.cnt ∧ after.num = made.revoked.num ∧
      after.sec = made.revoked.sec ∧ after.chk = made.revoked.chk := by
  induction scripts with
  | nil => exact fun made => ⟨rfl, rfl, rfl, rfl⟩
  | cons script rest ih =>
      intro made
      obtain ⟨hcnt, hnum, hsec, hchk⟩ := addVout_counts crypto keys phashSearch made script
      obtain ⟨hcnt', hnum', hsec', hchk'⟩ := ih (made.addVout crypto keys phashSearch script)
      exact ⟨hcnt'.trans hcnt, hnum'.trans hnum, hsec'.trans hsec, hchk'.trans hchk⟩

end Loop

/-! ### Bounds and contents -/

namespace RevokedCommit

variable (commit : RevokedCommit crypto chan)

def scripts : List Bytes :=
  commit.tx.vout.map Prod.snd

/-- The script of the to_local output. -/
def tolocal : Bytes :=
  (crypto.p2wsh commit.build.bufWs).bytes

theorem scripts_eq : commit.scripts = commit.vout.map fun out => out.script.bytes := by
  rw [scripts, tx, build, buildToRemote, lnScriptCommittxCreate, List.map_map]
  rfl

theorem keys_eq :
    (chan.withRevokedKeys crypto commit.secret commit.index).fundingRemote.scriptpubkeys =
      commit.keys := by
  have hown := commit.ownKeys
  have hpayment := congrArg Fundkeys.payment hown
  have hrevocation := congrArg Fundkeys.revocation hown
  have hhtlc := congrArg Fundkeys.htlc hown
  rw [keys, commit.derived]
  simp only [LnSelf.withRevokedKeys, LnSelf.updateScriptkeys, commit.peerKeys] at *
  rw [hpayment, hrevocation, hhtlc]

theorem bufWs_eq : commit.build.bufWs =
    lnScriptCreateTolocal commit.keys.revocation commit.keys.delayed
      chan.commitLocal.toSelfDelay := by
  rw [← commit.toSelfDelay]
  rfl

theorem vout_cases {out : BtcVout} (hmem : out ∈ commit.vout) :
    (out.opt = .toremote ∧ ∃ key, out.script = .p2wpkh (crypto.hash160 key)) ∨
      (out.opt = .tolocal ∧ out.script = crypto.p2wsh commit.build.bufWs) ∨
      ∃ info, out.opt = .htlc info ∧ out.script = crypto.p2wsh info.script ∧
        ∃ bare, info = lnScriptHtlcinfoScript crypto commit.keys bare := by
  rcases committx_vout_cases hmem with ⟨hopt, hscript⟩ | ⟨hopt, hscript⟩ |
    ⟨info, hinfo, hopt, hscript⟩
  · exact .inl ⟨hopt, _, hscript⟩
  · exact .inr (.inl ⟨hopt, hscript⟩)
  · obtain ⟨bare, -, hbare⟩ := List.mem_map.mp hinfo
    exact .inr (.inr ⟨info, hopt, hscript, bare, hbare.symm⟩)

theorem vout_length_le : commit.vout.length ≤ 8 := by
  refine (committx_vout_length_le crypto _ _).trans ?_
  have hamount := htlcinfoAmount_length_le remoteSelect commit.signer.cnlAddHtlc
    commit.signer.ourMsat commit.signer.theirMsat
  simp only [List.length_map]
  exact Nat.add_le_add_left hamount 2

theorem vout_ne_nil : commit.vout ≠ [] := by
  intro hnil
  have hvalid := commit.valid
  have hout : commit.tx.vout = [] := by
    have hmap : commit.tx.vout = commit.vout.map BtcVout.wire := rfl
    rw [hmap, hnil]
    rfl
  simp only [BtcTx.isValid, Bool.and_eq_true, Bool.not_eq_true'] at hvalid
  have hempty : commit.tx.vout.isEmpty = false := hvalid.1
  rw [hout] at hempty
  cases hempty

theorem calcCommitNum_eq : calcCommitNum chan commit.tx = commit.commitNum := by
  rw [tx, build, buildToRemote]
  apply calcCommitNum_committx
  · rw [commit.obscured]
  · exact commit.obscured_lt
  · exact commit.commitNum_lt

/-- The loop of `ln_close_remoterevoked` runs with the keys of the commitment. -/
theorem closeRemoterevoked_eq (phashSearch : Bytes → Option PhashEntry) :
    ∃ after made, lnCloseRemoterevoked crypto phashSearch chan commit.tx = some (after, made) ∧
      Looped crypto commit.keys phashSearch commit.tolocal commit.build.bufWs commit.scripts
        made ∧
      made.revoked.cnt = (revokedVouts commit.tx).length.toUInt16 ∧
      made.revoked.num = 1 + (revokedVouts commit.tx).length.toUInt16 ∧
      made.revoked.sec = commit.secret ∧ made.revoked.chk = 0 := by
  have hnum := commit.calcCommitNum_eq
  obtain ⟨after, hafter, hkeys, hlocal⟩ : ∃ after : LnSelf,
      chan.withRevokedKeys crypto commit.secret commit.index = after ∧
        after.fundingRemote.scriptpubkeys = commit.keys ∧
          after.commitLocal = chan.commitLocal :=
    ⟨_, rfl, commit.keys_eq, withRevokedKeys_commitLocal ..⟩
  refine ⟨after, commit.scripts.foldl (RevokedBuild.addVout crypto commit.keys phashSearch)
    (.start crypto after (revokedVouts commit.tx).length.toUInt16 commit.secret), ?_, ?_,
    foldl_addVout_counts _ _⟩
  · have hreceived := commit.received
    simp only [lnCloseRemoterevoked, hnum, hreceived, Option.map_some]
    rw [← index, hafter, hkeys, scripts]
  · rw [← List.nil_append commit.scripts]
    apply looped_foldl
    have hstart := looped_start crypto phashSearch after
      (revokedVouts commit.tx).length.toUInt16 commit.secret
    simp only [hkeys, hlocal, ← bufWs_eq] at hstart
    exact hstart

section Contents

variable {commit} (hsizes : DigestSizes crypto)

include hsizes

theorem length_toremote {out : BtcVout} (hmem : out ∈ commit.vout) :
    out.script.bytes.length = btcSzWitprogP2wpkh ↔ out.opt = .toremote := by
  rcases commit.vout_cases hmem with ⟨hopt, key, hscript⟩ | ⟨hopt, hscript⟩ |
    ⟨info, hopt, hscript, -⟩
  · rw [hopt, hscript]
    simp [ScriptPk.bytes, hsizes.hash160, btcSzWitprogP2wpkh]
  · rw [hopt, hscript]
    simp [ScriptPk.bytes, Crypto.p2wsh, hsizes.sha256, btcSzWitprogP2wpkh]
  · rw [hopt, hscript]
    simp [ScriptPk.bytes, Crypto.p2wsh, hsizes.sha256, btcSzWitprogP2wpkh]

omit hsizes in
theorem p2wsh_bytes_inj {script script' : Bytes}
    (heq : (crypto.p2wsh script).bytes = (crypto.p2wsh script').bytes) :
    crypto.sha256 script = crypto.sha256 script' := by
  simpa [Crypto.p2wsh, ScriptPk.bytes] using heq

omit hsizes in
/-- A to_local script begins with another byte than an HTLC script. -/
theorem ne_tolocal_of_htlc (hcollision : commit.NoCollision) {out : BtcVout}
    (hmem : out ∈ commit.vout) {info : LnScriptHtlcinfo} (hopt : out.opt = .htlc info) :
    out.script.bytes ≠ commit.tolocal := by
  intro heq
  rcases commit.vout_cases hmem with ⟨hopt', -⟩ | ⟨hopt', -⟩ | ⟨info', hopt', hscript, bare, hbare⟩
  · cases hopt.symm.trans hopt'
  · cases hopt.symm.trans hopt'
  · obtain rfl := VoutOpt.htlc.inj (hopt.symm.trans hopt')
    rw [hscript] at heq
    have hsame := hcollision out hmem info hopt (p2wsh_bytes_inj heq)
    rw [commit.bufWs_eq, hbare] at hsame
    have hhead := congrArg List.head? hsame
    cases htype : bare.type with
    | offered =>
        simp [lnScriptHtlcinfoScript, htype, createScriptOffered, lnScriptCreateTolocal] at hhead
    | received =>
        simp [lnScriptHtlcinfoScript, htype, createScriptReceived, lnScriptCreateTolocal] at hhead

theorem entry_of_search {out : BtcVout} (hmem : out ∈ commit.vout) {info : LnScriptHtlcinfo}
    (hcollision : commit.NoCollision) (hopt : out.opt = .htlc info) {entry : PhashEntry}
    (hsearch : phashSearch out.script.bytes = some entry) :
    entry ∈ foundEntries phashSearch commit.tolocal commit.scripts := by
  rw [foundEntries, List.mem_filterMap]
  refine ⟨out.script.bytes, ?_, ?_⟩
  · rw [scripts_eq]
    exact List.mem_map_of_mem hmem
  · have hlength : out.script.bytes.length ≠ btcSzWitprogP2wpkh := by
      rw [Ne, length_toremote hsizes hmem, hopt]
      exact nofun
    rw [if_neg (not_or.mpr ⟨hlength, ne_tolocal_of_htlc hcollision hmem hopt⟩)]
    exact hsearch

/-- An output for which an entry is found is an HTLC output. -/
theorem htlc_of_found (hsaved : commit.PhashSaved phashSearch) {out : BtcVout}
    (hmem : out ∈ commit.vout) {entry : PhashEntry}
    (hfound : (if out.script.bytes.length = btcSzWitprogP2wpkh ∨
      out.script.bytes = commit.tolocal then none else phashSearch out.script.bytes) =
        some entry) :
    phashSearch out.script.bytes = some entry ∧ ∃ info, out.opt = .htlc info ∧
      (crypto.p2wsh (entry.script crypto commit.keys)).bytes = out.script.bytes := by
  by_cases hskip : out.script.bytes.length = btcSzWitprogP2wpkh ∨
      out.script.bytes = commit.tolocal
  · rw [if_pos hskip] at hfound
    cases hfound
  · rw [if_neg hskip] at hfound
    obtain ⟨hlength, hlocal⟩ := not_or.mp hskip
    rcases commit.vout_cases hmem with ⟨hopt, -⟩ | ⟨-, hscript⟩ | ⟨info, hopt, hscript, -⟩
    · exact absurd ((length_toremote hsizes hmem).mpr hopt) hlength
    · exact absurd (congrArg ScriptPk.bytes hscript) hlocal
    · refine ⟨hfound, info, hopt, ?_⟩
      rw [(hsaved out hmem info hopt entry hfound).2, ← hscript]

/-- Every entry found belongs to an HTLC output. -/
theorem htlc_of_entry (hsaved : commit.PhashSaved phashSearch) {entry : PhashEntry}
    (hfound : entry ∈ foundEntries phashSearch commit.tolocal commit.scripts) :
    ∃ out ∈ commit.vout, ∃ info, out.opt = .htlc info ∧
      phashSearch out.script.bytes = some entry ∧
        (crypto.p2wsh (entry.script crypto commit.keys)).bytes = out.script.bytes := by
  rw [foundEntries, List.mem_filterMap] at hfound
  obtain ⟨script, hscript, hfound⟩ := hfound
  rw [scripts_eq, List.mem_map] at hscript
  obtain ⟨out, hmem, rfl⟩ := hscript
  obtain ⟨hsearch, info, hopt, hrebuilt⟩ := htlc_of_found hsizes hsaved hmem hfound
  exact ⟨out, hmem, info, hopt, hsearch, hrebuilt⟩

omit hsizes in
theorem length_foundEntries {tolocal : Bytes} (scripts : List Bytes) :
    (foundEntries phashSearch tolocal scripts).length =
      scripts.countP fun script => (if script.length = btcSzWitprogP2wpkh ∨ script = tolocal
        then none else phashSearch script).isSome :=
  List.length_filterMap_eq_countP ..

omit hsizes in
theorem length_revokedVouts : (revokedVouts commit.tx).length =
    commit.scripts.countP fun script => script.length != btcSzWitprogP2wpkh := by
  rw [revokedVouts, List.countP_eq_length_filter]
  rfl

omit hsizes in
theorem found_le (phashSearch : Bytes → Option PhashEntry) (tolocal : Bytes)
    (scripts : List Bytes) :
    (foundEntries phashSearch tolocal scripts).length ≤
      scripts.countP fun script => script.length != btcSzWitprogP2wpkh := by
  rw [length_foundEntries]
  apply List.countP_mono_left
  intro script _ hsome
  by_cases hskip : script.length = btcSzWitprogP2wpkh ∨ script = tolocal
  · rw [if_pos hskip] at hsome
    cases hsome
  · simpa using (not_or.mp hskip).1

theorem found_lt_of_tolocal (phashSearch : Bytes → Option PhashEntry) (hlocal : commit.HasToLocal) :
    (foundEntries phashSearch commit.tolocal commit.scripts).length <
      (revokedVouts commit.tx).length := by
  obtain ⟨out, hmem, hopt⟩ := hlocal
  have hscript : out.script.bytes = commit.tolocal := by
    rcases commit.vout_cases hmem with ⟨hopt', -⟩ | ⟨-, hscript⟩ | ⟨info, hopt', -⟩
    · cases hopt.symm.trans hopt'
    · rw [hscript]
      rfl
    · cases hopt.symm.trans hopt'
  have hlength : commit.tolocal.length ≠ btcSzWitprogP2wpkh := by
    rw [← hscript, Ne, length_toremote hsizes hmem, hopt]
    exact nofun
  have hin : commit.tolocal ∈ commit.scripts := by
    rw [scripts_eq, ← hscript]
    exact List.mem_map_of_mem hmem
  obtain ⟨front, back, hsplit⟩ := List.append_of_mem hin
  have hfront := found_le phashSearch commit.tolocal front
  have hback := found_le phashSearch commit.tolocal back
  have hskip : foundEntries phashSearch commit.tolocal (commit.tolocal :: back) =
      foundEntries phashSearch commit.tolocal back := by
    simp [foundEntries]
  rw [length_revokedVouts, hsplit, foundEntries_append, hskip, List.countP_append,
    List.countP_cons, List.length_append]
  have hcounts : (commit.tolocal.length != btcSzWitprogP2wpkh) = true := by simpa using hlength
  rw [if_pos hcounts]
  omega

/-- Without a to_local output every output to be taken back is an HTLC output. -/
theorem found_eq_of_no_tolocal (hlocal : ¬ commit.HasToLocal) (hcollision : commit.NoCollision)
    (hkept : commit.PhashKept phashSearch) :
    (foundEntries phashSearch commit.tolocal commit.scripts).length =
      (revokedVouts commit.tx).length := by
  rw [length_revokedVouts, length_foundEntries]
  apply List.countP_congr
  intro script hscript
  rw [scripts_eq, List.mem_map] at hscript
  obtain ⟨out, hmem, rfl⟩ := hscript
  have hremote := length_toremote hsizes hmem
  rcases commit.vout_cases hmem with ⟨hopt, -⟩ | ⟨hopt, -⟩ | ⟨info, hopt, -⟩
  · rw [if_pos (.inl (hremote.mpr hopt))]
    simp [hremote.mpr hopt]
  · exact absurd ⟨out, hmem, hopt⟩ hlocal
  · have hlength : out.script.bytes.length ≠ btcSzWitprogP2wpkh := by
      rw [Ne, hremote, hopt]
      exact nofun
    rw [if_neg (not_or.mpr ⟨hlength, ne_tolocal_of_htlc hcollision hmem hopt⟩)]
    simp [hlength, hkept out hmem info hopt]

omit hsizes in
theorem length_revokedVouts_le (commit : RevokedCommit crypto chan) :
    (revokedVouts commit.tx).length ≤ 8 := by
  rw [length_revokedVouts]
  refine List.countP_le_length.trans ?_
  rw [scripts_eq, List.length_map]
  exact commit.vout_length_le

/-- A script stored at a position of the arrays is that of an entry found. -/
theorem entry_at {made : RevokedBuild} (hlooped : Looped crypto commit.keys phashSearch
      commit.tolocal commit.build.bufWs commit.scripts made)
    (hcollision : commit.NoCollision) {out : BtcVout} (hmem : out ∈ commit.vout)
    {info : LnScriptHtlcinfo} (hopt : out.opt = .htlc info) {index : Nat}
    (hindex : made.revoked.vout index = out.script.bytes) :
    ∃ pos entry, index = 2 + pos ∧
      (foundEntries phashSearch commit.tolocal commit.scripts)[pos]? = some entry := by
  have hlength : out.script.bytes.length ≠ btcSzWitprogP2wpkh := by
    rw [Ne, length_toremote hsizes hmem, hopt]
    exact nofun
  have hnonempty : out.script.bytes ≠ [] := by
    cases out.script with
    | p2wpkh hash => exact nofun
    | p2wsh hash => exact nofun
  match index with
  | 0 => exact absurd (hindex.symm.trans hlooped.first.1) (ne_tolocal_of_htlc hcollision hmem hopt)
  | 1 =>
      rcases hlooped.second with hempty | hsecond
      · exact absurd (hindex.symm.trans hempty) hnonempty
      · rw [hindex] at hsecond
        exact absurd hsecond hlength
  | pos + 2 =>
      by_cases hlt : pos < (foundEntries phashSearch commit.tolocal commit.scripts).length
      · exact ⟨pos, _, Nat.add_comm .., List.getElem?_eq_getElem hlt⟩
      · have hempty := hlooped.beyond pos (Nat.le_of_not_lt hlt)
        rw [Nat.add_comm, hindex] at hempty
        exact absurd hempty hnonempty

/-- The arrays hold what spends every output, within bounds, where the transaction pays the
peer itself and the phash database still knows its HTLCs. -/
theorem stored_iff (hsaved : commit.PhashSaved phashSearch) (hcollision : commit.NoCollision)
    {made : RevokedBuild} (hlooped : Looped crypto commit.keys phashSearch
      commit.tolocal commit.build.bufWs commit.scripts made)
    (hnum : made.revoked.num = 1 + (revokedVouts commit.tx).length.toUInt16)
    (hsec : made.revoked.sec = commit.secret) :
    commit.Stored made ↔ commit.HasToLocal ∧ commit.PhashKept phashSearch := by
  have hle := length_revokedVouts_le commit
  have hnat : made.revoked.num.toNat = 1 + (revokedVouts commit.tx).length := by
    rw [hnum, UInt16.toNat_add]
    simp only [UInt16.toNat_one, Nat.toUInt16, UInt16.toNat_ofNat']
    omega
  constructor
  · rintro ⟨hwrites, -, hall⟩
    have hkept : commit.PhashKept phashSearch := by
      intro out hmem info hopt
      have hwit : commit.witScript out = some info.script := by
        simp only [witScript, hopt]
      obtain ⟨index, -, hindex, -⟩ := hall out hmem _ hwit
      obtain ⟨pos, entry, rfl, hentry⟩ :=
        entry_at hsizes hlooped hcollision hmem hopt hindex
      obtain ⟨other, -, _, -, hsearch, hscript⟩ :=
        htlc_of_entry hsizes hsaved (List.mem_of_getElem? hentry)
      rw [← hindex, (hlooped.entries pos entry hentry).1, hscript, hsearch]
      rfl
    refine ⟨?_, hkept⟩
    by_contra hlocal
    have hfound := found_eq_of_no_tolocal hsizes hlocal hcollision hkept
    by_cases hzero : (revokedVouts commit.tx).length = 0
    · -- only to_remote outputs are left, and their entry is out of bounds
      obtain ⟨out, hmem⟩ := List.exists_mem_of_ne_nil _ commit.vout_ne_nil
      have hin : out.script.bytes ∈ commit.scripts := by
        rw [scripts_eq]
        exact List.mem_map_of_mem hmem
      rw [length_revokedVouts, List.countP_eq_zero] at hzero
      have hlength : out.script.bytes.length = btcSzWitprogP2wpkh := by
        simpa using hzero _ hin
      have hone := hwrites 1 ((hlooped.writes 1).mpr (.inr (.inl ⟨rfl, _, hin, hlength⟩)))
      rw [hnat, length_revokedVouts, List.countP_eq_zero.mpr hzero] at hone
      omega
    · have hlast := hwrites (1 + (revokedVouts commit.tx).length)
        ((hlooped.writes _).mpr (.inr (.inr ⟨by omega, by omega⟩)))
      omega
  · rintro ⟨hlocal, hkept⟩
    have hroom := found_lt_of_tolocal hsizes phashSearch hlocal
    refine ⟨?_, hsec, ?_⟩
    · intro index hmem
      rcases (hlooped.writes index).mp hmem with rfl | ⟨rfl, -⟩ | ⟨-, hhigh⟩
      · omega
      · omega
      · omega
    · intro out hmem wit hwit
      rcases commit.vout_cases hmem with ⟨hopt, -⟩ | ⟨hopt, hscript⟩ | ⟨info, hopt, hscript, -⟩
      · simp only [witScript, hopt] at hwit
        cases hwit
      · simp only [witScript, hopt, Option.some.injEq] at hwit
        refine ⟨0, by omega, ?_, hlooped.first.2.trans hwit⟩
        rw [hlooped.first.1, hscript]
        rfl
      · simp only [witScript, hopt, Option.some.injEq] at hwit
        obtain ⟨entry, hsearch⟩ := Option.isSome_iff_exists.mp (hkept out hmem info hopt)
        obtain ⟨pos, hpos⟩ := List.getElem?_of_mem
          (entry_of_search hsizes hmem hcollision hopt hsearch)
        obtain ⟨hvout, hwitAt⟩ := hlooped.entries pos entry hpos
        have hrebuilt := (hsaved out hmem info hopt entry hsearch).2
        have hlt := (List.getElem?_eq_some_iff.mp hpos).1
        refine ⟨2 + pos, by omega, ?_, ?_⟩
        · rw [hvout, hrebuilt, hscript]
        · rw [hwitAt, hrebuilt, hwit]

end Contents

end RevokedCommit

end Ptarmigan
