import Mathlib.Tactic.SplitIfs
import BytecodeHost.Cli.Command

/-!
# Calls on the command line

A call is asked for by options, a module and numbers. Numbers that are written in decimal are read
as they are meant, because no decimal numeral looks like one in another base. A module whose
reference starts with a minus sign cannot be asked for, because it would be read as an option.

## Main definitions

* `Job` — a call that can be asked for on the command line as well as from a server
* `Job.cliArgs`, `Job.cliRequest` — the arguments that ask for it, and what they are read as

## Main results

* `Literal.readNat_toDigits`, `Literal.readInt_toString` — numbers are read from their numerals
* `Job.ofArgs_cliArgs` — every job can be asked for
-/

namespace BytecodeHost

/-! ## Decimal numerals -/

namespace Literal

section

variable {c : Char} {cs : List Char} {bound value n : Nat}

theorem digitValue?_of_isDigit (h : c.isDigit = true) :
    digitValue? c = some (c.toNat - '0'.toNat) :=
  if_pos h

theorem toNat_sub_lt_of_isDigit (h : c.isDigit = true) : c.toNat - '0'.toNat < 10 := by
  obtain ⟨-, hle⟩ := Char.isDigit_iff_toNat.mp h
  have hnine : '9'.toNat = '0'.toNat + 9 := rfl
  omega

theorem ne_underscore_of_isDigit (h : c.isDigit = true) : c ≠ '_' := by
  rintro rfl
  exact absurd h (by decide)

theorem le_ofDigitChars (value : Nat) (cs : List Char) : value ≤ Nat.ofDigitChars 10 cs value := by
  induction cs generalizing value with
  | nil => simp
  | cons c cs ih =>
    rw [Nat.ofDigitChars_cons]
    have := ih (10 * value + (c.toNat - '0'.toNat))
    omega

/-- Digits are read one by one, as long as the number that they make is small enough. -/
theorem readDigits_of_isDigit (hdigits : ∀ c ∈ cs, c.isDigit = true)
    (hbound : Nat.ofDigitChars 10 cs value < bound) :
    readDigits 10 bound value cs = .ok (Nat.ofDigitChars 10 cs value) := by
  induction cs generalizing value with
  | nil => rw [readDigits, Nat.ofDigitChars_nil]
  | cons c cs ih =>
    obtain ⟨hc, hcs⟩ := List.forall_mem_cons.mp hdigits
    rw [Nat.ofDigitChars_cons] at hbound ⊢
    have hvalue : value * 10 + (c.toNat - '0'.toNat) = 10 * value + (c.toNat - '0'.toNat) := by
      omega
    have hsmall := Nat.lt_of_le_of_lt (le_ofDigitChars _ cs) hbound
    rw [readDigits, if_neg (ne_underscore_of_isDigit hc), digitValue?_of_isDigit hc]
    dsimp only
    rw [if_neg (Nat.not_le.mpr (toNat_sub_lt_of_isDigit hc)), hvalue,
      if_neg (Nat.not_le.mpr hsmall), ih hcs hbound]

/-- Digits have no underscores that could stand in the wrong place. -/
theorem separated_of_isDigit (hdigits : ∀ c ∈ cs, c.isDigit = true) (afterDigit : Bool) :
    separated Char.isDigit afterDigit cs = true := by
  induction cs generalizing afterDigit with
  | nil => rw [separated]
  | cons c cs ih =>
    obtain ⟨hc, hcs⟩ := List.forall_mem_cons.mp hdigits
    rw [separated]
    · exact ih hcs _
    · rintro rfl
      exact absurd hc (by decide)
    · rintro d rest rfl
      exact absurd hc (by decide)

/-- No numeral but that of zero starts with a zero. -/
theorem head?_toDigits_ne (h : n ≠ 0) : (Nat.toDigits 10 n).head? ≠ some '0' := by
  induction n using Nat.strongRecOn with
  | ind n ih =>
    rw [Nat.toDigits_eq_if (by decide)]
    split_ifs with hn
    · intro hdigit
      have hvalue := Nat.toNat_digitChar_of_lt_ten hn
      rw [Option.some.inj hdigit] at hvalue
      have hzero : '0'.toNat = 48 := rfl
      omega
    · have hfront := ih (n / 10) (by omega) (by omega)
      obtain ⟨c, cs, hcs⟩ := List.exists_cons_of_ne_nil (Nat.toDigits_ne_nil (n := n / 10))
      rw [hcs] at hfront ⊢
      exact hfront

theorem splitBase_of_head?_ne (h : cs.head? ≠ some '0') : splitBase cs = (10, cs) := by
  rw [splitBase]
  · rintro m c rest rfl
    exact h rfl
  · rintro rest rfl
    exact h rfl

theorem separatedLiteral_of_head?_ne (h : cs.head? ≠ some '0') :
    separatedLiteral cs = separated Char.isDigit false cs := by
  rw [separatedLiteral]
  rintro m rest rfl
  exact h rfl

/-- **A natural number is read from its decimal numeral.** -/
theorem readNat_toDigits (h : n < bound) : readNat bound (Nat.toDigits 10 n) = .ok n := by
  by_cases hzero : n = 0
  · rw [hzero, Nat.toDigits_zero]
    rfl
  · have hdigits : ∀ c ∈ Nat.toDigits 10 n, c.isDigit = true := fun c hc =>
      Nat.isDigit_of_mem_toDigits (by decide) (by decide) hc
    have hhead := head?_toDigits_ne hzero
    have hempty : ¬(Nat.toDigits 10 n).isEmpty = true := by
      rw [List.isEmpty_iff]
      exact Nat.toDigits_ne_nil
    have hvalue : Nat.ofDigitChars 10 (Nat.toDigits 10 n) 0 = n := Nat.ofDigitChars_ten_toDigits
    have hread : readDigits 10 bound 0 (Nat.toDigits 10 n) = .ok n := by
      rw [readDigits_of_isDigit hdigits (by rwa [hvalue]), hvalue]
    rw [readNat, if_neg hempty, splitBase_of_head?_ne hhead]
    dsimp only
    rw [hread]
    dsimp only
    rw [separatedLiteral_of_head?_ne hhead, separated_of_isDigit hdigits, if_pos rfl]

end

theorem readInt_of_isDigit (bits : Nat) {cs : List Char} (hdigits : ∀ c ∈ cs, c.isDigit = true) :
    readInt bits cs = readInt.unsigned bits cs := by
  rw [readInt]
  · rintro rest rfl
    exact absurd (hdigits '-' List.mem_cons_self) (by decide)
  · rintro rest rfl
    exact absurd (hdigits '+' List.mem_cons_self) (by decide)

/-- **A 32-bit integer is read from its decimal numeral.** -/
theorem readInt_toString (i : Int32) : readInt 32 (toString i.toInt).toList = .ok i.toInt := by
  have hlow : -2147483648 ≤ i.toInt := i.le_toInt
  have hhigh : i.toInt < 2147483648 := i.toInt_lt
  rw [Int.toString_eq_repr, Int.repr_eq_if]
  split_ifs with hi
  · have hread : readNat (1 <<< 32) (Nat.toDigits 10 i.toInt.toNat) = .ok i.toInt.toNat :=
      readNat_toDigits (by omega)
    rw [Nat.toList_repr, readInt_of_isDigit 32 fun c hc =>
      Nat.isDigit_of_mem_toDigits (by decide) (by decide) hc, readInt.unsigned, hread]
    dsimp only
    rw [if_neg (by omega), Int.toNat_of_nonneg hi]
  · have hread : readNat (1 <<< 32) (Nat.toDigits 10 (-i.toInt).toNat) = .ok (-i.toInt).toNat :=
      readNat_toDigits (by omega)
    rw [String.toList_append, Nat.toList_repr]
    show readInt 32 ('-' :: Nat.toDigits 10 (-i.toInt).toNat) = _
    rw [readInt, hread]
    dsimp only
    rw [if_neg (by omega), Int.toNat_of_nonneg (by omega), Int.neg_neg]

end Literal

/-! ## Options -/

namespace Options

/-- **A 64-bit number is read from its decimal numeral.** -/
theorem readWord_toString (n : UInt64) : readWord (toString n.toNat) = .ok n := by
  have hread : Literal.readNat (1 <<< 64) (toString n.toNat).toList = .ok n.toNat := by
    rw [Nat.toString_eq_repr, Nat.toList_repr]
    exact Literal.readNat_toDigits n.toNat_lt
  rw [readWord, hread]
  exact congrArg Except.ok n.ofNat_toNat

/-- What does not start with a minus sign is no option. -/
theorem classify_of_head?_ne {arg : String} (h : arg.toList.head? ≠ some '-') :
    classify arg = .other := by
  rw [classify]
  split
  · rename_i heq
    exact absurd (congrArg List.head? heq) h
  · rename_i heq
    exact absurd (congrArg List.head? heq) h
  · rename_i heq
    exact absurd (congrArg List.head? heq) h
  · rfl

variable {α : Type} {options : List (String × Action α)} {a b : α} {name value : String}

/-- An option is read with the value behind it. -/
theorem parse_value {set : α → String → Except ValueProblem α} {arg : String}
    (hname : classify arg = .option name none) (hoption : options.lookup name = some (.value set))
    (hset : set a value = .ok b) (rest : List String) :
    parse options a (arg :: value :: rest) = parse options b rest := by
  rw [parse, hname]
  dsimp only
  rw [hoption]
  dsimp only
  rw [hset]

end Options

/-! ## Calls -/

/-- A call of a module, which may start from a snapshot and leave one behind. -/
structure Job where
  /-- The module. -/
  ref : String
  command : Int32
  /-- The arguments after the command. -/
  args : List Int32 := []
  /-- The label of the snapshot that the call starts from; none if empty. -/
  restore : String := ""
  /-- The label that the arena is saved under afterwards; none if empty. -/
  save : String := ""
  /-- The instruction limit. -/
  limit : UInt64 := 0

namespace Job

/-- The arguments that ask for a job on the command line. -/
def cliArgs (j : Job) : List String :=
  ["-restore", j.restore, "-save", j.save, "-max-instructions", toString j.limit.toNat, j.ref,
    toString j.command.toInt] ++ j.args.map fun i => toString i.toInt

/-- What they are read as. -/
def cliRequest (j : Job) : Cli.RunRequest where
  options := { save := j.save, restore := j.restore, maxInstructions := j.limit }
  ref := j.ref
  words := j.command.toUInt32 :: j.args.map Int32.toUInt32

theorem readWords_toString (k : Nat) (is : List Int32) :
    Cli.readWords k (is.map fun i => toString i.toInt) = .ok (is.map Int32.toUInt32) := by
  induction is generalizing k with
  | nil => rfl
  | cons i is ih =>
    rw [List.map_cons, Cli.readWords, Literal.readInt_toString]
    dsimp only
    rw [ih, Int32.ofInt_toInt]
    rfl

/-- **Every job can be asked for** on the command line, if its module does not look like an
option. -/
theorem ofArgs_cliArgs {j : Job} (href : j.ref.toList.head? ≠ some '-') (w : Cli.Setting) :
    Cli.RunRequest.ofArgs w j.cliArgs = .ok j.cliRequest := by
  have hlimit : Options.readWord (toString j.limit.toNat) = .ok j.limit :=
    Options.readWord_toString j.limit
  have hset : (Options.readWord (toString j.limit.toNat)).map (fun maxInstructions =>
      ({ save := j.save, restore := j.restore, maxInstructions } : Cli.RunOptions))
      = .ok j.cliRequest.options := by
    rw [hlimit]
    rfl
  have hparse : Options.parse Cli.RunOptions.actions { maxInstructions := w.config.maxInstructions }
      j.cliArgs = .ok (j.cliRequest.options,
        j.ref :: (j.command :: j.args).map fun i => toString i.toInt) := by
    rw [cliArgs, List.cons_append, List.cons_append, Options.parse_value rfl rfl rfl,
      List.cons_append, List.cons_append, Options.parse_value rfl rfl rfl, List.cons_append,
      List.cons_append, Options.parse_value rfl rfl hset, List.cons_append, Options.parse,
      Options.classify_of_head?_ne href]
    rfl
  rw [Cli.RunRequest.ofArgs, hparse]
  dsimp only
  rw [readWords_toString]
  rfl

end Job

end BytecodeHost
