/-
Bitcoin Script, as far as witness scripts with branches, signatures, digests and time locks use it:
the bytes, the machine that runs them with its stack of conditions, and the same programs as trees.
Limits of size and the rules that only relay uses are left out.
-/
import Ptarmigan.Library.LittleEndian
import Ptarmigan.Library.OrderedMatch
import Mathlib.Algebra.Order.Ring.Int

namespace Script

/-! ### Values -/

/-- An item of the stack. -/
abbrev Item := List UInt8

/-- What an item comes to where a condition is expected; the sign of zero is no matter. -/
def truthy : Item → Bool
  | [] => false
  | [last] => last != 0 && last != 0x80
  | byte :: bytes => byte != 0 || truthy bytes

def ofBool (value : Bool) : Item :=
  if value then [1] else []

@[simp] theorem truthy_ofBool (value : Bool) : truthy (ofBool value) = value := by
  cases value <;> rfl

/-- The bytes of a positive number, with room for the sign. -/
def magnitude (value : Nat) : Item :=
  if value < 128 then [value.toUInt8] else value.toUInt8 :: magnitude (value / 256)
termination_by value
decreasing_by omega

/-- A number as the machine writes it. -/
def ofNat (value : Nat) : Item :=
  if value = 0 then [] else magnitude value

theorem magnitude_ne_nil (value : Nat) : magnitude value ≠ [] := by
  rw [magnitude]
  split <;> simp

/-- The numbers of a single byte are told apart from all others. -/
theorem ofNat_eq_singleton {value small : Nat} (hpos : 0 < small) (hsmall : small < 128) :
    ofNat value = [small.toUInt8] ↔ value = small := by
  constructor
  · intro hbytes
    rw [ofNat] at hbytes
    split at hbytes
    · cases hbytes
    · rw [magnitude] at hbytes
      split at hbytes
      · rename_i hfits
        have hbyte := congrArg UInt8.toNat (List.cons.inj hbytes).1
        have hleft : value.toUInt8.toNat = value % 256 := rfl
        have hright : small.toUInt8.toNat = small % 256 := rfl
        omega
      · exact absurd (List.cons.inj hbytes).2 (magnitude_ne_nil _)
  · rintro rfl
    rw [ofNat, if_neg hpos.ne', magnitude, if_pos hsmall]

/-- An item as a number of at most so many bytes; the highest bit is the sign. -/
def toInt (limit : Nat) (item : Item) : Option Int :=
  if limit < item.length then none
  else
    match item.getLast? with
    | none => some 0
    | some last =>
        let value := LittleEndian.decode item
        if last < 0x80 then some value
        else some (-((value - 0x80 * 256 ^ (item.length - 1) : Nat) : Int))

theorem getLast?_encode (count value : Nat) :
    (LittleEndian.encode (count + 1) value).getLast? = some (value / 256 ^ count).toUInt8 := by
  induction count generalizing value with
  | zero => simp [LittleEndian.encode]
  | succ count ih =>
      rw [LittleEndian.encode, List.getLast?_cons, ih, Nat.div_div_eq_div_mul, Nat.pow_succ,
        Nat.mul_comm 256]
      rfl

/-- A number with room for the sign is read back. -/
theorem toInt_encode {limit count value : Nat} (hcount : count + 1 ≤ limit)
    (hfits : value < 128 * 256 ^ count) :
    toInt limit (LittleEndian.encode (count + 1) value) = some (value : Int) := by
  have hread : LittleEndian.decode (LittleEndian.encode (count + 1) value) = value := by
    apply LittleEndian.decode_encode
    rw [Nat.pow_succ]
    omega
  have htop : (value / 256 ^ count).toUInt8 < 0x80 := by
    have hdiv : value / 256 ^ count < 128 := Nat.div_lt_of_lt_mul (by rwa [Nat.mul_comm])
    rw [UInt8.lt_iff_toNat_lt]
    have hbyte : (value / 256 ^ count).toUInt8.toNat = value / 256 ^ count :=
      Nat.mod_eq_of_lt (hdiv.trans (by decide))
    rw [hbyte]
    exact hdiv
  rw [toInt, LittleEndian.length_encode, if_neg (by omega), getLast?_encode]
  simp only [hread, if_pos htop]

/-! ### Instructions -/

/-- The instructions that do not branch. -/
inductive Simple
  | push (data : Item)
  | drop
  | dup
  | swap
  | size
  | equal
  | equalVerify
  | hash160
  | checkSig
  | checkMultiSig
  | checkLockTimeVerify
  | checkSequenceVerify
  | other (code : UInt8)
deriving DecidableEq, Repr

inductive Op
  | simple (op : Simple)
  /-- `OP_IF`, or `OP_NOTIF` when negated. -/
  | cond (negated : Bool)
  | elseOp
  | endIf
deriving DecidableEq, Repr

/-- What the signatures, digests and time locks of a script are held against: the signature checks
for a spending transaction, and its version, lock time and sequence. -/
structure Env where
  checkSig : Item → Item → Bool
  hash160 : Item → Item
  version : Nat
  lockTime : Nat
  sequence : Nat

namespace Env

variable (env : Env)

/-- The transaction is final no earlier than the lock, which is of the same kind, height or time. -/
def locked (lock : Nat) : Bool :=
  decide (lock < 500000000 ↔ env.lockTime < 500000000) && decide (lock ≤ env.lockTime) &&
    env.sequence != 0xffffffff

/-- The input is as old as the lock, which is of the same kind. -/
def aged (lock : Nat) : Bool :=
  decide (2 ≤ env.version) && !env.sequence.testBit 31 &&
    (lock.testBit 22 == env.sequence.testBit 22) &&
      decide (lock % 2 ^ 16 ≤ env.sequence % 2 ^ 16)

/-- `OP_CHECKMULTISIG`: the keys and the signatures lie on the stack in order, the last ones on
top, and below them an item that has to be empty. -/
def multiSig : List Item → Option (List Item)
  | [] => none
  | count :: stack =>
      match toInt 4 count with
      | none => none
      | some count =>
          if count < 0 ∨ 20 < count ∨ stack.length < count.toNat then none
          else
            match stack.drop count.toNat with
            | [] => none
            | needed :: below =>
                match toInt 4 needed with
                | none => none
                | some needed =>
                    if needed < 0 ∨ count < needed ∨ below.length < needed.toNat then none
                    else
                      match below.drop needed.toNat with
                      | [] => none
                      | dummy :: rest =>
                          if dummy ≠ [] then none
                          else
                            let check sig pub := some (env.checkSig sig pub)
                            some (ofBool (OrderedMatch.greedy check (below.take needed.toNat)
                              (stack.take count.toNat) == some true) :: rest)

/-- The instructions that do not branch, on the stack with its top in front; `none` is failure. -/
def step : Simple → List Item → Option (List Item)
  | .push data, stack => some (data :: stack)
  | .drop, _ :: stack => some stack
  | .dup, top :: stack => some (top :: top :: stack)
  | .swap, top :: next :: stack => some (next :: top :: stack)
  | .size, top :: stack => some (ofNat top.length :: top :: stack)
  | .equal, top :: next :: stack => some (ofBool (top == next) :: stack)
  | .equalVerify, top :: next :: stack => if top = next then some stack else none
  | .hash160, top :: stack => some (env.hash160 top :: stack)
  | .checkSig, pub :: sig :: stack => some (ofBool (env.checkSig sig pub) :: stack)
  | .checkMultiSig, stack => env.multiSig stack
  | .checkLockTimeVerify, top :: stack =>
      match toInt 5 top with
      | some (.ofNat lock) => if env.locked lock then some (top :: stack) else none
      | _ => none
  | .checkSequenceVerify, top :: stack =>
      match toInt 5 top with
      | some (.ofNat lock) =>
          if lock.testBit 31 || env.aged lock then some (top :: stack) else none
      | _ => none
  | _, _ => none

end Env

section Steps

variable (env : Env) (top next : Item) (stack : List Item)

@[simp] theorem step_push (data : Item) : env.step (.push data) stack = some (data :: stack) :=
  rfl

@[simp] theorem step_drop : env.step .drop (top :: stack) = some stack := rfl

@[simp] theorem step_dup : env.step .dup (top :: stack) = some (top :: top :: stack) := rfl

@[simp] theorem step_dup_nil : env.step .dup [] = none := rfl

@[simp] theorem step_swap :
    env.step .swap (top :: next :: stack) = some (next :: top :: stack) :=
  rfl

@[simp] theorem step_size :
    env.step .size (top :: stack) = some (ofNat top.length :: top :: stack) :=
  rfl

@[simp] theorem step_equal :
    env.step .equal (top :: next :: stack) = some (ofBool (top == next) :: stack) :=
  rfl

@[simp] theorem step_equalVerify :
    env.step .equalVerify (top :: next :: stack) = if top = next then some stack else none :=
  rfl

@[simp] theorem step_hash160 :
    env.step .hash160 (top :: stack) = some (env.hash160 top :: stack) :=
  rfl

@[simp] theorem step_checkSig :
    env.step .checkSig (top :: next :: stack) = some (ofBool (env.checkSig next top) :: stack) :=
  rfl

@[simp] theorem step_checkSig_nil : env.step .checkSig [] = none := rfl

@[simp] theorem step_checkSig_singleton : env.step .checkSig [top] = none := rfl

variable {top}

/-- A lock time in a script. -/
theorem step_checkLockTimeVerify {lock : Nat} (hread : toInt 5 top = some (lock : Int)) :
    env.step .checkLockTimeVerify (top :: stack) =
      if env.locked lock then some (top :: stack) else none := by
  rw [Env.step, hread]

/-- A delay in a script, which is not switched off. -/
theorem step_checkSequenceVerify {lock : Nat} (hread : toInt 5 top = some (lock : Int))
    (hon : lock.testBit 31 = false) :
    env.step .checkSequenceVerify (top :: stack) =
      if env.aged lock then some (top :: stack) else none := by
  rw [Env.step, hread]
  simp [hon]

/-- Two of two: each signature with its own key. -/
@[simp] theorem step_checkMultiSig_two (pubTop pubNext : Item) :
    env.step .checkMultiSig ([2] :: pubTop :: pubNext :: [2] :: stack) =
      match stack with
      | sigTop :: sigNext :: dummy :: rest =>
          if dummy ≠ [] then none
          else some (ofBool (env.checkSig sigTop pubTop && env.checkSig sigNext pubNext) :: rest)
      | _ => none := by
  rw [Env.step]
  have htwo : toInt 4 [2] = some 2 := by decide
  have hcount : (2 : Int).toNat = 2 := rfl
  simp only [Env.multiSig, htwo, hcount, List.length_cons, List.drop_succ_cons, List.drop_zero,
    List.take_succ_cons, List.take_zero]
  match stack with
  | [] => simp
  | [_] => simp
  | [_, _] => simp
  | sigTop :: sigNext :: dummy :: rest =>
      have hgreedy : (OrderedMatch.greedy (fun sig pub => some (env.checkSig sig pub))
          [sigTop, sigNext] [pubTop, pubNext] == some true) =
            (env.checkSig sigTop pubTop && env.checkSig sigNext pubNext) := by
        simp only [OrderedMatch.greedy]
        cases env.checkSig sigTop pubTop <;> cases env.checkSig sigNext pubNext <;> rfl
      have hstack : ¬ rest.length + 1 + 1 + 1 + 1 + 1 + 1 < 2 := by omega
      have hbelow : ¬ rest.length + 1 + 1 + 1 < 2 := by omega
      simp [hgreedy, hstack, hbelow]

end Steps

/-! ### The machine -/

/-- The stack, and for each open branch whether it is taken, the innermost in front. -/
@[ext] structure Machine where
  stack : List Item
  conds : List Bool

def Machine.running (machine : Machine) : Bool :=
  machine.conds.all id

def Env.exec (env : Env) (machine : Machine) : Op → Option Machine
  | .simple op =>
      if machine.running then
        (env.step op machine.stack).map fun stack => { machine with stack }
      else some machine
  | .cond negated =>
      if machine.running then
        match machine.stack with
        | [] => none
        | top :: stack => some ⟨stack, (truthy top != negated) :: machine.conds⟩
      else some { machine with conds := false :: machine.conds }
  | .elseOp =>
      match machine.conds with
      | [] => none
      | taken :: conds => some { machine with conds := (!taken) :: conds }
  | .endIf =>
      match machine.conds with
      | [] => none
      | _ :: conds => some { machine with conds }

def Env.run (env : Env) : List Op → Machine → Option Machine
  | [], machine => some machine
  | op :: ops, machine => (env.exec machine op).bind (env.run ops)

/-- All branches are closed, and a single item is left that comes to true. -/
def Machine.accepted : Machine → Bool
  | ⟨[top], []⟩ => truthy top
  | _ => false

/-- The script takes the items of a witness, the last one on top. -/
def Env.accepts (env : Env) (ops : List Op) (items : List Item) : Bool :=
  (env.run ops ⟨items.reverse, []⟩).any Machine.accepted

theorem Env.run_append (env : Env) (first second : List Op) (machine : Machine) :
    env.run (first ++ second) machine = (env.run first machine).bind (env.run second) := by
  induction first generalizing machine with
  | nil => rfl
  | cons op first ih =>
      rw [List.cons_append, run, run, Option.bind_assoc]
      congr 1
      funext after
      exact ih after

/-! ### Programs as trees -/

/-- A program whose branches are closed. -/
inductive Prog
  | done
  | seq (op : Simple) (rest : Prog)
  | branch (negated : Bool) (yes no rest : Prog)

namespace Prog

/-- Instructions that do not branch, one after another. -/
def block : List Simple → Prog → Prog
  | [], rest => rest
  | op :: ops, rest => seq op (block ops rest)

def ops : Prog → List Op
  | done => []
  | seq op rest => .simple op :: rest.ops
  | branch negated yes no rest =>
      .cond negated :: (yes.ops ++ .elseOp :: (no.ops ++ .endIf :: rest.ops))

/-- What a program does to the stack. -/
def eval (env : Env) : Prog → List Item → Option (List Item)
  | done, stack => some stack
  | seq op rest, stack => (env.step op stack).bind (rest.eval env)
  | branch _ _ _ _, [] => none
  | branch negated yes no rest, top :: stack =>
      (if truthy top != negated then yes.eval env stack else no.eval env stack).bind
        (rest.eval env)

/-- A program comes to a single item, which is true. -/
def Takes (env : Env) (prog : Prog) (stack : List Item) : Prop :=
  ∃ top, prog.eval env stack = some [top] ∧ truthy top = true

variable {env : Env}

/-- In a branch that is not taken nothing happens. -/
theorem run_skipped (prog : Prog) (stack : List Item) {conds : List Bool}
    (hskip : conds.all id = false) :
    env.run prog.ops ⟨stack, conds⟩ = some ⟨stack, conds⟩ := by
  induction prog generalizing conds with
  | done => rfl
  | seq op rest ih =>
      have hstays : env.exec ⟨stack, conds⟩ (.simple op) = some ⟨stack, conds⟩ := by
        simp [Env.exec, Machine.running, hskip]
      rw [ops, Env.run, hstays, Option.bind_some, ih hskip]
  | branch negated yes no rest ihYes ihNo ihRest =>
      have hopens : env.exec ⟨stack, conds⟩ (.cond negated) = some ⟨stack, false :: conds⟩ := by
        simp [Env.exec, Machine.running, hskip]
      have hturns : env.exec ⟨stack, false :: conds⟩ .elseOp = some ⟨stack, true :: conds⟩ := rfl
      have hcloses : env.exec ⟨stack, true :: conds⟩ .endIf = some ⟨stack, conds⟩ := rfl
      have hyes : (false :: conds).all id = false := by simp
      have hno : (true :: conds).all id = false := by simpa using hskip
      rw [ops, Env.run, hopens, Option.bind_some, Env.run_append, ihYes hyes, Option.bind_some,
        Env.run, hturns, Option.bind_some, Env.run_append, ihNo hno, Option.bind_some, Env.run,
        hcloses, Option.bind_some, ihRest hskip]

/-- The machine does what the tree says. -/
theorem run_ops (prog : Prog) (stack : List Item) {conds : List Bool}
    (htaken : conds.all id = true) :
    env.run prog.ops ⟨stack, conds⟩ = (prog.eval env stack).map fun after => ⟨after, conds⟩ := by
  induction prog generalizing stack conds with
  | done => rfl
  | seq op rest ih =>
      have hsteps : env.exec ⟨stack, conds⟩ (.simple op) =
          (env.step op stack).map fun after => ⟨after, conds⟩ := by
        simp [Env.exec, Machine.running, htaken]
      rw [ops, Env.run, hsteps, eval]
      cases env.step op stack with
      | none => rfl
      | some after => exact ih after htaken
  | branch negated yes no rest ihYes ihNo ihRest =>
      cases stack with
      | nil =>
          have hfails : env.exec ⟨[], conds⟩ (.cond negated) = none := by
            simp [Env.exec, Machine.running, htaken]
          rw [ops, Env.run, hfails, eval]
          rfl
      | cons top stack =>
          have hopens : env.exec ⟨top :: stack, conds⟩ (.cond negated) =
              some ⟨stack, (truthy top != negated) :: conds⟩ := by
            simp [Env.exec, Machine.running, htaken]
          have hturns : ∀ after taken, env.exec ⟨after, taken :: conds⟩ .elseOp =
              some ⟨after, (!taken) :: conds⟩ := fun _ _ => rfl
          have hcloses : ∀ after taken, env.exec ⟨after, taken :: conds⟩ .endIf =
              some ⟨after, conds⟩ := fun _ _ => rfl
          have htrue : (true :: conds).all id = true := by simpa using htaken
          have hfalse : (false :: conds).all id = false := by simp
          rw [ops, Env.run, hopens, Option.bind_some, Env.run_append, eval]
          cases truthy top != negated with
          | true =>
              rw [ihYes stack htrue, if_pos rfl]
              cases yes.eval env stack with
              | none => rfl
              | some after =>
                  rw [Option.map_some, Option.bind_some, Env.run, hturns, Option.bind_some,
                    Env.run_append, Bool.not_true, run_skipped no after hfalse, Option.bind_some,
                    Env.run, hcloses, Option.bind_some, ihRest after htaken, Option.bind_some]
          | false =>
              rw [run_skipped yes stack hfalse, if_neg Bool.false_ne_true, Option.bind_some,
                Env.run, hturns, Option.bind_some, Env.run_append, Bool.not_false,
                ihNo stack htrue]
              cases no.eval env stack with
              | none => rfl
              | some after =>
                  rw [Option.map_some, Option.bind_some, Env.run, hcloses, Option.bind_some,
                    ihRest after htaken, Option.bind_some]

/-- The witnesses that a program takes. -/
theorem accepts_iff (prog : Prog) (items : List Item) :
    env.accepts prog.ops items = true ↔ prog.Takes env items.reverse := by
  rw [Env.accepts, run_ops prog items.reverse rfl]
  cases heval : prog.eval env items.reverse with
  | none => simp [Takes, heval]
  | some stack =>
      cases stack with
      | nil => simp [Takes, Machine.accepted, heval]
      | cons top rest => cases rest <;> simp [Takes, Machine.accepted, heval]

end Prog

/-! ### Bytes -/

/-- The instruction of a byte that pushes no bytes of the script. -/
def opOf (code : UInt8) : Op :=
  match code with
  | 0x4f => .simple (.push [0x81])
  | 0x63 => .cond false
  | 0x64 => .cond true
  | 0x67 => .elseOp
  | 0x68 => .endIf
  | 0x75 => .simple .drop
  | 0x76 => .simple .dup
  | 0x7c => .simple .swap
  | 0x82 => .simple .size
  | 0x87 => .simple .equal
  | 0x88 => .simple .equalVerify
  | 0xa9 => .simple .hash160
  | 0xac => .simple .checkSig
  | 0xae => .simple .checkMultiSig
  | 0xb1 => .simple .checkLockTimeVerify
  | 0xb2 => .simple .checkSequenceVerify
  | code =>
      if 0x51 ≤ code ∧ code ≤ 0x60 then .simple (.push [code - 0x50]) else .simple (.other code)

/-- How many bytes an instruction pushes, and what is behind that number. -/
def pushed (code : UInt8) (bytes : List UInt8) : Option (Nat × List UInt8) :=
  if code ≤ 0x4b then some (code.toNat, bytes)
  else
    let width := 2 ^ (code.toNat - 0x4c)
    if bytes.length < width then none
    else some (LittleEndian.decode (bytes.take width), bytes.drop width)

theorem length_pushed {code : UInt8} {bytes rest : List UInt8} {count : Nat}
    (hpushed : pushed code bytes = some (count, rest)) : rest.length ≤ bytes.length := by
  simp only [pushed] at hpushed
  split_ifs at hpushed
  · rw [(Prod.mk.inj (Option.some.inj hpushed)).2]
  · rw [← (Prod.mk.inj (Option.some.inj hpushed)).2, List.length_drop]
    exact Nat.sub_le _ _

/-- The instructions of a script. -/
def decode : List UInt8 → Option (List Op)
  | [] => some []
  | code :: bytes =>
      if 0x4e < code then (decode bytes).map (opOf code :: ·)
      else
        match _hpushed : pushed code bytes with
        | none => none
        | some (count, rest) =>
            if rest.length < count then none
            else (decode (rest.drop count)).map (.simple (.push (rest.take count)) :: ·)
termination_by bytes => bytes.length
decreasing_by
  · simp
  · have hle := length_pushed _hpushed
    rw [List.length_drop, List.length_cons]
    omega

/-- The bytes are those of the instructions, whatever is behind them. -/
def Decodes (bytes : List UInt8) (ops : List Op) : Prop :=
  ∀ rest, decode (bytes ++ rest) = (decode rest).map (ops ++ ·)

theorem Decodes.append {first second : List UInt8} {ops ops' : List Op}
    (hfirst : Decodes first ops) (hsecond : Decodes second ops') :
    Decodes (first ++ second) (ops ++ ops') := by
  intro rest
  rw [List.append_assoc, hfirst, hsecond, Option.map_map]
  congr 1
  funext more
  rw [Function.comp_apply, List.append_assoc]

theorem decodes_nil : Decodes [] [] := by
  intro rest
  simp

theorem decodes_op {code : UInt8} (hcode : 0x4e < code) : Decodes [code] [opOf code] := by
  intro rest
  rw [List.singleton_append, decode, if_pos hcode]
  rfl

/-- Bytes none of which pushes bytes of the script. -/
theorem decodes_ops {codes : List UInt8}
    (hcodes : codes.all (fun code => decide (0x4e < code)) = true) :
    Decodes codes (codes.map opOf) := by
  induction codes with
  | nil => exact decodes_nil
  | cons code codes ih =>
      rw [List.all_cons, Bool.and_eq_true, decide_eq_true_iff] at hcodes
      obtain ⟨hcode, hcodes⟩ := hcodes
      exact (decodes_op hcode).append (ih hcodes)

theorem decodes_push {data : Item} (hlength : data.length ≤ 75) :
    Decodes (data.length.toUInt8 :: data) [.simple (.push data)] := by
  intro rest
  have htoNat : data.length.toUInt8.toNat = data.length :=
    Nat.mod_eq_of_lt (by omega)
  have hsmall : data.length.toUInt8 ≤ 0x4b := by
    rw [UInt8.le_iff_toNat_le, htoNat]
    exact hlength
  have hnot : ¬ (0x4e : UInt8) < data.length.toUInt8 := by
    rw [UInt8.lt_iff_toNat_lt, htoNat]
    have hlimit : (0x4e : UInt8).toNat = 78 := rfl
    omega
  have hpushed : pushed data.length.toUInt8 (data ++ rest) = some (data.length, data ++ rest) := by
    rw [pushed, if_pos hsmall, htoNat]
  rw [List.cons_append, decode, if_neg hnot]
  split
  · rename_i hnone
    rw [hpushed] at hnone
    cases hnone
  · rename_i count behind hsome
    rw [hpushed] at hsome
    obtain ⟨rfl, rfl⟩ := Prod.mk.inj (Option.some.inj hsome)
    rw [if_neg (by simp), List.take_left, List.drop_left]
    rfl

/-- The script takes the items. -/
def Env.spends (env : Env) (script : List UInt8) (items : List Item) : Bool :=
  (decode script).any fun ops => env.accepts ops items

theorem Decodes.decode_eq {bytes : List UInt8} {ops : List Op} (hbytes : Decodes bytes ops) :
    decode bytes = some ops := by
  have hall := hbytes []
  rw [List.append_nil] at hall
  rw [hall, decode, Option.map_some, List.append_nil]

theorem Decodes.spends_iff {env : Env} {script : List UInt8} {prog : Prog}
    (hscript : Decodes script prog.ops) (items : List Item) :
    env.spends script items = true ↔ prog.Takes env items.reverse := by
  rw [Env.spends, hscript.decode_eq, Option.any_some, prog.accepts_iff]

end Script
