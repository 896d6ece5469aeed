import Mathlib.Data.List.Forall2
import Mathlib.Data.List.TakeDrop
import Mathlib.Tactic.SplitIfs
import BytecodeHost.Json.Parser

/-!
# Reading a JSON value among others

The reader stops behind the value that it reads and does not look at what follows, with one
exception: a number goes on as long as it can. So a value is read in front of other text just as it
is read alone, if that text cannot continue a number. The text of an array is read item by item in
this way, each item as it is read alone.

What does depend on the surroundings is how deep the value may be nested. A value in an array has
one level less than the value alone, and that is enough to tell them apart.

## Main definitions

* `JsonValue.depth` — how many levels a value opens
* `JsonValue.Delimits` — text that cannot continue a number
* `JsonValue.Local` — readers that do not look at what follows

## Main results

* `JsonValue.read?_append` — a value is read in front of other text
* `JsonValue.depth_le_of_read?` — a value that is read is not nested too deep
* `JsonValue.parse?_arrayText` — an array is read item by item
-/

namespace BytecodeHost

namespace JsonValue

/-! ## Readers that stop -/

/-- Text that cannot continue a number. -/
def Delimits (t : List UInt8) : Prop :=
  ∀ b rest, t = b :: rest → isDigit b = false ∧ b ≠ 0x2E ∧ b ≠ 0x65 ∧ b ≠ 0x45

/-- A reader that reads the same in front of other text. If it comes to the end of its input, the
other text must not continue what it has read. -/
structure Local {α : Type} (p : List UInt8 → Option (α × List UInt8)) : Prop where
  /-- Of nothing, nothing is left. -/
  nil : ∀ {a rest}, p [] = some (a, rest) → rest = []
  /-- Other text is left as it is. -/
  append : ∀ {s a rest} t, p s = some (a, rest) → (rest = [] → Delimits t) →
    p (s ++ t) = some (a, rest ++ t)

namespace Local

variable {α β : Type} {p : List UInt8 → Option (α × List UInt8)}

/-- A reader that reads nothing. -/
theorem pure (a : α) : Local fun s => some (a, s) where
  nil := fun h => (Prod.mk.inj (Option.some.inj h)).2.symm
  append := by
    intro s b rest t h _
    obtain ⟨rfl, rfl⟩ := Prod.mk.inj (Option.some.inj h)
    rfl

/-- One reader after the other. -/
theorem bind (hp : Local p) {q : α → List UInt8 → Option (β × List UInt8)}
    (hq : ∀ a, Local (q a)) : Local fun s => (p s).bind fun r => q r.1 r.2 where
  nil := by
    intro b rest h
    obtain ⟨⟨a, middle⟩, hfirst, hsecond⟩ := Option.bind_eq_some_iff.mp h
    obtain rfl := hp.nil hfirst
    exact (hq a).nil hsecond
  append := by
    intro s b rest t h ht
    obtain ⟨⟨a, middle⟩, hfirst, hsecond⟩ := Option.bind_eq_some_iff.mp h
    have hmiddle : middle = [] → Delimits t := by
      rintro rfl
      exact ht ((hq a).nil hsecond)
    simp only [hp.append t hfirst hmiddle, Option.bind_some]
    exact (hq a).append t hsecond ht

/-- A reader whose value is made into another one. -/
theorem map (hp : Local p) (f : α → β) : Local fun s => (p s).map fun r => (f r.1, r.2) where
  nil := by
    intro b rest h
    obtain ⟨⟨a, rest'⟩, hread, heq⟩ := Option.map_eq_some_iff.mp h
    obtain ⟨-, rfl⟩ := Prod.mk.inj heq
    exact hp.nil hread
  append := by
    intro s b rest t h ht
    obtain ⟨⟨a, rest'⟩, hread, heq⟩ := Option.map_eq_some_iff.mp h
    obtain ⟨rfl, rfl⟩ := Prod.mk.inj heq
    simp only [hp.append t hread ht, Option.map_some]

end Local

/-! ### Blanks and words -/

/-- Blanks in front of more text are skipped on their own. -/
theorem skipBlank_append {s : List UInt8} (t : List UInt8) (h : skipBlank s ≠ []) :
    skipBlank (s ++ t) = skipBlank s ++ t := by
  induction s with
  | nil => exact absurd rfl h
  | cons b s ih =>
    simp only [skipBlank, List.cons_append, List.dropWhile_cons] at h ih ⊢
    split_ifs at h ⊢
    · exact ih h
    · rfl

theorem skipBlank_append_of_cons {s inner : List UInt8} {b : UInt8} (h : skipBlank s = b :: inner)
    (t : List UInt8) : skipBlank (s ++ t) = b :: (inner ++ t) := by
  rw [skipBlank_append t (h ▸ List.cons_ne_nil b inner), h, List.cons_append]

theorem skipBlank_of_blank {s : List UInt8} (t : List UInt8) (h : skipBlank s = []) :
    skipBlank (s ++ t) = skipBlank t := by
  induction s with
  | nil => rfl
  | cons b s ih =>
    rw [skipBlank, List.dropWhile_cons] at h
    split_ifs at h with hb
    rw [skipBlank, List.cons_append, List.dropWhile_cons, if_pos hb]
    exact ih h

theorem skipBlank_skipBlank (s : List UInt8) : skipBlank (skipBlank s) = skipBlank s := by
  induction s with
  | nil => rfl
  | cons b s ih =>
    simp only [skipBlank, List.dropWhile_cons]
    split_ifs with hb
    · exact ih
    · rw [List.dropWhile_cons, if_neg hb]

/-- A word is read in front of any text. -/
theorem readWord?_append {word s rest : List UInt8} (t : List UInt8)
    (h : readWord? word s = some rest) : readWord? word (s ++ t) = some (rest ++ t) := by
  induction word generalizing s with
  | nil =>
    rw [readWord?] at h ⊢
    rw [Option.some.inj h]
  | cons w word ih =>
    cases s with
    | nil => contradiction
    | cons b s =>
      rw [readWord?] at h
      rw [List.cons_append, readWord?]
      split_ifs at h ⊢
      exact ih h

theorem readMark?_append {mark : UInt8} {s rest : List UInt8} (t : List UInt8)
    (h : readMark? mark s = some rest) : readMark? mark (s ++ t) = some (rest ++ t) := by
  have hblank : skipBlank s ≠ [] := by
    intro hnil
    rw [readMark?, hnil] at h
    contradiction
  rw [readMark?, skipBlank_append t hblank]
  exact readWord?_append t h

/-! ### Strings -/

/-- A string ends at its own mark. -/
theorem readString?_append {out : ByteArray} {pending : Option Nat} {s rest : List UInt8}
    {b : ByteArray} (t : List UInt8) (h : readString? out pending s = some (b, rest)) :
    readString? out pending (s ++ t) = some (b, rest ++ t) := by
  fun_induction readString? out pending s with
  | case1 | case4 | case6 | case7 => contradiction
  | case2 out pending s =>
    obtain ⟨rfl, rfl⟩ := Prod.mk.inj (Option.some.inj h)
    rfl
  | case3 out pending x y z w s unit hunit out' pending' hpush ih =>
    simp only [List.cons_append, readString?, hunit, hpush]
    exact ih h
  | case5 out pending c s _ x hescape ih =>
    have hc : c ≠ 0x75 := by
      rintro rfl
      contradiction
    rw [List.cons_append, List.cons_append, readString?, hescape]
    · exact ih h
    · intro _ _ _ _ _ heq
      exact absurd heq hc
  | case8 out pending c s hquote _ _ hplain ih =>
    have hc : c ≠ 0x5C := fun heq => hplain (.inr heq)
    rw [List.cons_append, readString?, if_neg hplain]
    · exact ih h
    · exact hquote
    · intro _ _ _ _ _ heq
      exact absurd heq hc
    · intro _ _ heq
      exact absurd heq hc

theorem readText_append {s rest : List UInt8} {text : String} (t : List UInt8)
    (h : readText s = some (text, rest)) : readText (s ++ t) = some (text, rest ++ t) := by
  rw [readText] at h ⊢
  cases hread : readString? .empty none s with
  | none =>
    rw [hread] at h
    contradiction
  | some r =>
    rw [hread] at h
    obtain ⟨rfl, rfl⟩ := Prod.mk.inj (Option.some.inj h)
    rw [readString?_append t hread]

/-! ### Numbers -/

theorem span_append {s front rest : List UInt8} {t : List UInt8}
    (h : s.span isDigit = (front, rest)) (ht : rest = [] → Delimits t) :
    (s ++ t).span isDigit = (front, rest ++ t) := by
  rw [List.span_eq_takeWhile_dropWhile] at h ⊢
  obtain ⟨rfl, rfl⟩ := Prod.mk.inj h
  induction s with
  | nil =>
    have hdelimits := ht rfl
    cases t with
    | nil => rfl
    | cons b t => simp [(hdelimits b t rfl).1]
  | cons b s ih =>
    simp only [List.cons_append, List.takeWhile_cons, List.dropWhile_cons] at ht ⊢
    split_ifs at ht ⊢ with hb
    · obtain ⟨htake, hdrop⟩ := Prod.mk.inj (ih ht rfl)
      rw [htake, hdrop]
    · rfl

theorem local_readDigits? : Local readDigits? where
  nil := by
    intro a rest h
    contradiction
  append := by
    intro s digits rest t h ht
    rw [readDigits?] at h ⊢
    cases hspan : s.span isDigit with
    | mk front rest' =>
      rw [hspan] at h
      cases front with
      | nil => contradiction
      | cons b front =>
        obtain ⟨rfl, rfl⟩ := Prod.mk.inj (Option.some.inj h)
        rw [span_append hspan ht]

theorem readWhole?_cons (b : UInt8) (s : List UInt8) :
    readWhole? (b :: s) = if b = 0x30 then some ([0x30], s) else readDigits? (b :: s) := by
  split_ifs with hb
  · rw [hb]
    rfl
  · rw [readWhole?]
    intro rest heq
    exact hb (List.cons.inj heq).1

theorem local_readWhole? : Local readWhole? where
  nil := by
    intro a rest h
    contradiction
  append := by
    intro s digits rest t h ht
    cases s with
    | nil => contradiction
    | cons b s =>
      rw [readWhole?_cons] at h
      rw [List.cons_append, readWhole?_cons]
      split_ifs at h ⊢
      · obtain ⟨rfl, rfl⟩ := Prod.mk.inj (Option.some.inj h)
        rfl
      · exact local_readDigits?.append t h ht

theorem readFraction?_cons (b : UInt8) (s : List UInt8) :
    readFraction? (b :: s) = if b = 0x2E then readDigits? s else some ([], b :: s) := by
  split_ifs with hb
  · rw [hb]
    rfl
  · rw [readFraction?]
    intro rest heq
    exact hb (List.cons.inj heq).1

theorem local_readFraction? : Local readFraction? where
  nil := by
    intro a rest h
    exact (Prod.mk.inj (Option.some.inj h)).2.symm
  append := by
    intro s digits rest t h ht
    cases s with
    | nil =>
      obtain ⟨rfl, rfl⟩ := Prod.mk.inj (Option.some.inj h)
      cases t with
      | nil => rfl
      | cons b t =>
        rw [List.nil_append, readFraction?_cons, if_neg (ht rfl b t rfl).2.1]
    | cons b s =>
      rw [readFraction?_cons] at h
      rw [List.cons_append, readFraction?_cons]
      split_ifs at h ⊢
      · exact local_readDigits?.append t h ht
      · obtain ⟨rfl, rfl⟩ := Prod.mk.inj (Option.some.inj h)
        rfl

theorem readSigned?_cons (b : UInt8) (s : List UInt8) :
    readSigned? (b :: s) =
      if b = 0x2D then (readDigits? s).map fun r => (-(natOfDigits 0 r.1 : Int), r.2)
      else if b = 0x2B then (readDigits? s).map fun r => ((natOfDigits 0 r.1 : Int), r.2)
      else (readDigits? (b :: s)).map fun r => ((natOfDigits 0 r.1 : Int), r.2) := by
  split_ifs with hminus hplus
  · rw [hminus]
    rfl
  · rw [hplus]
    rfl
  · rw [readSigned?]
    · intro rest heq
      exact hminus (List.cons.inj heq).1
    · intro rest heq
      exact hplus (List.cons.inj heq).1

theorem local_readSigned? : Local readSigned? where
  nil := by
    intro a rest h
    contradiction
  append := by
    intro s e rest t h ht
    cases s with
    | nil => contradiction
    | cons b s =>
      rw [readSigned?_cons] at h
      rw [List.cons_append, readSigned?_cons]
      split_ifs at h ⊢
      · exact (local_readDigits?.map fun ds => -(natOfDigits 0 ds : Int)).append t h ht
      · exact (local_readDigits?.map fun ds => (natOfDigits 0 ds : Int)).append t h ht
      · exact (local_readDigits?.map fun ds => (natOfDigits 0 ds : Int)).append t h ht

theorem local_readExponent? : Local readExponent? where
  nil := by
    intro a rest h
    exact (Prod.mk.inj (Option.some.inj h)).2.symm
  append := by
    intro s e rest t h ht
    cases s with
    | nil =>
      obtain ⟨rfl, rfl⟩ := Prod.mk.inj (Option.some.inj h)
      cases t with
      | nil => rfl
      | cons b t =>
        obtain ⟨-, -, hlower, hupper⟩ := ht rfl b t rfl
        rw [List.nil_append, readExponent?, if_neg (not_or.mpr ⟨hlower, hupper⟩)]
    | cons b s =>
      rw [readExponent?] at h
      rw [List.cons_append, readExponent?]
      split_ifs at h ⊢
      · exact (local_readSigned?.map some).append t h ht
      · obtain ⟨rfl, rfl⟩ := Prod.mk.inj (Option.some.inj h)
        rfl

/-- A number ends where it cannot be continued. -/
theorem local_readNumber? (negative : Bool) : Local (readNumber? negative) :=
  local_readWhole?.bind fun whole => local_readFraction?.bind fun fraction =>
    local_readExponent?.bind fun exponent =>
      Local.pure (⟨⟨negative, natOfDigits (natOfDigits 0 whole) fraction,
        exponent.getD 0 - fraction.length⟩, fraction.isEmpty && exponent.isNone⟩ : JsonNumber)

/-! ## Values -/

mutual

/-- How many levels a value opens. -/
def depth : JsonValue → Nat
  | array items => depthItems items + 1
  | object members => depthMembers members + 1
  | _ => 0

/-- How many levels the deepest of some items opens. -/
def depthItems : List JsonValue → Nat
  | [] => 0
  | v :: rest => max (depth v) (depthItems rest)

/-- How many levels the deepest of some members opens. -/
def depthMembers : List (String × JsonValue) → Nat
  | [] => 0
  | (_, v) :: rest => max (depth v) (depthMembers rest)

end

theorem depth_array (items : List JsonValue) : (array items).depth = depthItems items + 1 := by
  rw [depth]

theorem depth_object (members : List (String × JsonValue)) :
    (object members).depth = depthMembers members + 1 := by
  rw [depth]

/-! ### Single steps

What comes next in the input is the first byte behind blanks; each of these says what is done with
it. -/

section

variable {fuel levels : Nat} {s inner middle after : List UInt8} {b : UInt8} {v : JsonValue}

theorem read?_of_nil (h : skipBlank s = []) : read? fuel levels s = none := by
  cases fuel with
  | zero => rw [read?]
  | succ fuel => rw [read?, h]

theorem readItems?_of_nil (h : skipBlank s = []) (before : List JsonValue) :
    readItems? fuel levels before s = none := by
  cases fuel with
  | zero => rw [readItems?]
  | succ fuel =>
    rw [readItems?, read?_of_nil h]
    rfl

theorem readMembers?_of_nil (h : skipBlank s = []) (before : List (String × JsonValue)) :
    readMembers? fuel levels before s = none := by
  cases fuel with
  | zero => rw [readMembers?]
  | succ fuel =>
    rw [readMembers?, readMark?, h]
    rfl

/-- Nothing can be opened where no level is left. -/
theorem read?_bracket_zero (hs : skipBlank s = 0x5B :: inner) : read? (fuel + 1) 0 s = none := by
  rw [read?, hs]
  rfl

theorem read?_brace_zero (hs : skipBlank s = 0x7B :: inner) : read? (fuel + 1) 0 s = none := by
  rw [read?, hs]
  rfl

/-- An array is closed at once, or its items are read. -/
theorem read?_bracket (hs : skipBlank s = 0x5B :: inner) (hinner : skipBlank inner = b :: after) :
    read? (fuel + 1) (levels + 1) s =
      if b = 0x5D then some (array [], after) else readItems? fuel levels [] (b :: after) := by
  by_cases hclose : b = 0x5D
  · subst hclose
    simp only [read?, hs, hinner]
    rfl
  · simp only [read?, hs, hinner, if_neg hclose]
    rw [if_neg (by decide), if_true]
    split
    next heq _ => contradiction
    next heq _ => exact absurd (List.cons.inj heq).1 hclose
    next hlevels _ => rw [Nat.succ.inj hlevels]

/-- An object is closed at once, or its members are read. -/
theorem read?_brace (hs : skipBlank s = 0x7B :: inner) (hinner : skipBlank inner = b :: after) :
    read? (fuel + 1) (levels + 1) s =
      if b = 0x7D then some (object [], after) else readMembers? fuel levels [] (b :: after) := by
  by_cases hclose : b = 0x7D
  · subst hclose
    simp only [read?, hs, hinner]
    rfl
  · simp only [read?, hs, hinner, if_neg hclose]
    rw [if_true]
    split
    next heq _ => contradiction
    next heq _ => exact absurd (List.cons.inj heq).1 hclose
    next hlevels _ => rw [Nat.succ.inj hlevels]

theorem read?_bracket_of_nil (hs : skipBlank s = 0x5B :: inner) (hinner : skipBlank inner = []) :
    read? (fuel + 1) levels s = none := by
  cases levels with
  | zero => exact read?_bracket_zero hs
  | succ levels =>
    simp only [read?, hs, hinner]
    exact readItems?_of_nil rfl []

theorem read?_brace_of_nil (hs : skipBlank s = 0x7B :: inner) (hinner : skipBlank inner = []) :
    read? (fuel + 1) levels s = none := by
  cases levels with
  | zero => exact read?_brace_zero hs
  | succ levels =>
    simp only [read?, hs, hinner]
    exact readMembers?_of_nil rfl []

/-- A value that opens no level, from its first byte on. -/
def readScalar? (b : UInt8) (s : List UInt8) : Option (JsonValue × List UInt8) :=
  if b = 0x22 then (readText s).map fun r => (string r.1, r.2)
  else if b = 0x74 then (readWord? "rue".toUTF8.toList s).map (bool true, ·)
  else if b = 0x66 then (readWord? "alse".toUTF8.toList s).map (bool false, ·)
  else if b = 0x6E then (readWord? "ull".toUTF8.toList s).map (null, ·)
  else if b = 0x2D then (readNumber? true s).map fun r => (number r.1, r.2)
  else (readNumber? false (b :: s)).map fun r => (number r.1, r.2)

theorem read?_scalar (hs : skipBlank s = b :: inner) (hbrace : b ≠ 0x7B) (hbracket : b ≠ 0x5B) :
    read? (fuel + 1) levels s = readScalar? b inner := by
  simp only [read?, hs, if_neg hbrace, if_neg hbracket]
  rfl

/-- Behind an item, the array goes on or is closed. -/
theorem readItems?_step (hread : read? fuel levels s = some (v, middle))
    (hmiddle : skipBlank middle = b :: after) (before : List JsonValue) :
    readItems? (fuel + 1) levels before s =
      if b = 0x2C then readItems? fuel levels (v :: before) after
      else if b = 0x5D then some (array (v :: before).reverse, after)
      else none := by
  simp only [readItems?, hread, bind, Option.bind, hmiddle]
  split_ifs with hcomma hclose
  · subst hcomma
    rfl
  · subst hclose
    rfl
  · split
    next heq => exact absurd (List.cons.inj heq).1 hcomma
    next heq => exact absurd (List.cons.inj heq).1 hclose
    next => rfl

/-- Behind a member, the object goes on or is closed. -/
theorem readMembers?_step {quoted named valued : List UInt8} {name : String}
    (hquote : readMark? 0x22 s = some quoted) (hname : readText quoted = some (name, named))
    (hcolon : readMark? 0x3A named = some valued)
    (hread : read? fuel levels valued = some (v, middle)) (hmiddle : skipBlank middle = b :: after)
    (before : List (String × JsonValue)) :
    readMembers? (fuel + 1) levels before s =
      if b = 0x2C then readMembers? fuel levels ((name, v) :: before) after
      else if b = 0x7D then some (object ((name, v) :: before).reverse, after)
      else none := by
  simp only [readMembers?, hquote, hname, hcolon, hread, bind, Option.bind, hmiddle]
  split_ifs with hcomma hclose
  · subst hcomma
    rfl
  · subst hclose
    rfl
  · split
    next heq => exact absurd (List.cons.inj heq).1 hcomma
    next heq => exact absurd (List.cons.inj heq).1 hclose
    next => rfl

/-- What has been read when the items of an array have been. -/
theorem exists_of_readItems? {before : List JsonValue} {r : JsonValue × List UInt8}
    (h : readItems? (fuel + 1) levels before s = some r) :
    ∃ v middle b after, read? fuel levels s = some (v, middle) ∧ skipBlank middle = b :: after := by
  rw [readItems?] at h
  obtain ⟨⟨v, middle⟩, hread, hrest⟩ := Option.bind_eq_some_iff.mp h
  cases hmiddle : skipBlank middle with
  | nil =>
    simp only [hmiddle] at hrest
    contradiction
  | cons b after => exact ⟨v, middle, b, after, hread, hmiddle⟩

/-- What has been read when the members of an object have been. -/
theorem exists_of_readMembers? {before : List (String × JsonValue)} {r : JsonValue × List UInt8}
    (h : readMembers? (fuel + 1) levels before s = some r) :
    ∃ quoted name named valued v middle b after, readMark? 0x22 s = some quoted ∧
      readText quoted = some (name, named) ∧ readMark? 0x3A named = some valued ∧
      read? fuel levels valued = some (v, middle) ∧ skipBlank middle = b :: after := by
  rw [readMembers?] at h
  obtain ⟨quoted, hquote, hrest⟩ := Option.bind_eq_some_iff.mp h
  obtain ⟨⟨name, named⟩, hname, hrest⟩ := Option.bind_eq_some_iff.mp hrest
  obtain ⟨valued, hcolon, hrest⟩ := Option.bind_eq_some_iff.mp hrest
  obtain ⟨⟨v, middle⟩, hread, hrest⟩ := Option.bind_eq_some_iff.mp hrest
  cases hmiddle : skipBlank middle with
  | nil =>
    simp only [hmiddle] at hrest
    contradiction
  | cons b after =>
    exact ⟨quoted, name, named, valued, v, middle, b, after, hquote, hname, hcolon, hread, hmiddle⟩

end

/-! ### Values in front of other text -/

/-- What is known of a value that was read: it is not nested too deep, and more fuel, other levels
and other text behind it make no difference. -/
def ReadsValue (fuel : Nat) : Prop :=
  ∀ ⦃levels : Nat⦄ ⦃s rest : List UInt8⦄ ⦃v : JsonValue⦄, read? fuel levels s = some (v, rest) →
    v.depth ≤ levels ∧
      ∀ ⦃fuel' levels' : Nat⦄ (t : List UInt8), fuel ≤ fuel' → v.depth ≤ levels' →
        (rest = [] → Delimits t) → read? fuel' levels' (s ++ t) = some (v, rest ++ t)

/-- What is known of the items that were read behind others. -/
def ReadsItems (fuel : Nat) : Prop :=
  ∀ ⦃levels : Nat⦄ ⦃before : List JsonValue⦄ ⦃s rest : List UInt8⦄ ⦃v : JsonValue⦄,
    readItems? fuel levels before s = some (v, rest) →
      ∃ items, v = array (before.reverse ++ items) ∧ depthItems items ≤ levels ∧
        ∀ ⦃fuel' levels' : Nat⦄ (t : List UInt8), fuel ≤ fuel' → depthItems items ≤ levels' →
          readItems? fuel' levels' before (s ++ t) = some (v, rest ++ t)

/-- What is known of the members that were read behind others. -/
def ReadsMembers (fuel : Nat) : Prop :=
  ∀ ⦃levels : Nat⦄ ⦃before : List (String × JsonValue)⦄ ⦃s rest : List UInt8⦄ ⦃v : JsonValue⦄,
    readMembers? fuel levels before s = some (v, rest) →
      ∃ members, v = object (before.reverse ++ members) ∧ depthMembers members ≤ levels ∧
        ∀ ⦃fuel' levels' : Nat⦄ (t : List UInt8), fuel ≤ fuel' → depthMembers members ≤ levels' →
          readMembers? fuel' levels' before (s ++ t) = some (v, rest ++ t)

section

variable {fuel : Nat}

theorem ReadsItems.succ (hvalue : ReadsValue fuel) (hitems : ReadsItems fuel) :
    ReadsItems (fuel + 1) := by
  intro levels before s rest v h
  obtain ⟨first, middle, b, after, hfirst, hmiddle⟩ := exists_of_readItems? h
  obtain ⟨hdepth, hread⟩ := hvalue hfirst
  have hblank := skipBlank_append_of_cons hmiddle
  have hgoes : middle ≠ [] := by
    rintro rfl
    contradiction
  rw [readItems?_step hfirst hmiddle] at h
  split_ifs at h with hcomma hclose
  · obtain ⟨items, rfl, hlevels, hrest⟩ := hitems h
    refine ⟨first :: items, by simp, Nat.max_le.mpr ⟨hdepth, hlevels⟩, ?_⟩
    intro fuel' levels' t hfuel hdeep
    obtain ⟨k, rfl⟩ : ∃ k, fuel' = k + 1 := ⟨fuel' - 1, by omega⟩
    rw [depthItems, Nat.max_le] at hdeep
    rw [readItems?_step (hread t (by omega) hdeep.1 fun hnil => absurd hnil hgoes) (hblank t),
      if_pos hcomma]
    exact hrest t (by omega) hdeep.2
  · obtain ⟨rfl, rfl⟩ := Prod.mk.inj (Option.some.inj h)
    refine ⟨[first], by simp, by simp [depthItems, hdepth], ?_⟩
    intro fuel' levels' t hfuel hdeep
    obtain ⟨k, rfl⟩ : ∃ k, fuel' = k + 1 := ⟨fuel' - 1, by omega⟩
    rw [depthItems, Nat.max_le] at hdeep
    rw [readItems?_step (hread t (by omega) hdeep.1 fun hnil => absurd hnil hgoes) (hblank t),
      if_neg hcomma, if_pos hclose]

theorem ReadsMembers.succ (hvalue : ReadsValue fuel) (hmembers : ReadsMembers fuel) :
    ReadsMembers (fuel + 1) := by
  intro levels before s rest v h
  obtain ⟨quoted, name, named, valued, first, middle, b, after, hquote, hname, hcolon, hfirst,
    hmiddle⟩ := exists_of_readMembers? h
  obtain ⟨hdepth, hread⟩ := hvalue hfirst
  have hblank := skipBlank_append_of_cons hmiddle
  have hgoes : middle ≠ [] := by
    rintro rfl
    contradiction
  have hstep : ∀ {fuel' levels' : Nat} (t : List UInt8), fuel ≤ fuel' → first.depth ≤ levels' →
      readMembers? (fuel' + 1) levels' before (s ++ t) =
        if b = 0x2C then readMembers? fuel' levels' ((name, first) :: before) (after ++ t)
        else if b = 0x7D then some (object ((name, first) :: before).reverse, after ++ t)
        else none :=
    fun t hfuel hdeep => readMembers?_step (readMark?_append t hquote) (readText_append t hname)
      (readMark?_append t hcolon) (hread t hfuel hdeep fun hnil => absurd hnil hgoes) (hblank t) _
  rw [readMembers?_step hquote hname hcolon hfirst hmiddle] at h
  split_ifs at h with hcomma hclose
  · obtain ⟨members, rfl, hlevels, hrest⟩ := hmembers h
    refine ⟨(name, first) :: members, by simp, Nat.max_le.mpr ⟨hdepth, hlevels⟩, ?_⟩
    intro fuel' levels' t hfuel hdeep
    obtain ⟨k, rfl⟩ : ∃ k, fuel' = k + 1 := ⟨fuel' - 1, by omega⟩
    rw [depthMembers, Nat.max_le] at hdeep
    rw [hstep t (by omega) hdeep.1, if_pos hcomma]
    exact hrest t (by omega) hdeep.2
  · obtain ⟨rfl, rfl⟩ := Prod.mk.inj (Option.some.inj h)
    refine ⟨[(name, first)], by simp, by simp [depthMembers, hdepth], ?_⟩
    intro fuel' levels' t hfuel hdeep
    obtain ⟨k, rfl⟩ : ∃ k, fuel' = k + 1 := ⟨fuel' - 1, by omega⟩
    rw [depthMembers, Nat.max_le] at hdeep
    rw [hstep t (by omega) hdeep.1, if_neg hcomma, if_pos hclose]

/-- What opens no level is read in front of other text. -/
theorem readScalar?_append {b : UInt8} {s rest : List UInt8} {v : JsonValue} (t : List UInt8)
    (h : readScalar? b s = some (v, rest)) (ht : rest = [] → Delimits t) :
    v.depth = 0 ∧ readScalar? b (s ++ t) = some (v, rest ++ t) := by
  simp only [readScalar?] at h ⊢
  split_ifs at h ⊢
  · obtain ⟨⟨text, rest'⟩, hread, heq⟩ := Option.map_eq_some_iff.mp h
    obtain ⟨rfl, rfl⟩ := Prod.mk.inj heq
    exact ⟨by rw [depth]; all_goals simp, by rw [readText_append t hread]; rfl⟩
  · obtain ⟨rest', hread, heq⟩ := Option.map_eq_some_iff.mp h
    obtain ⟨rfl, rfl⟩ := Prod.mk.inj heq
    exact ⟨by rw [depth]; all_goals simp, by rw [readWord?_append t hread]; rfl⟩
  · obtain ⟨rest', hread, heq⟩ := Option.map_eq_some_iff.mp h
    obtain ⟨rfl, rfl⟩ := Prod.mk.inj heq
    exact ⟨by rw [depth]; all_goals simp, by rw [readWord?_append t hread]; rfl⟩
  · obtain ⟨rest', hread, heq⟩ := Option.map_eq_some_iff.mp h
    obtain ⟨rfl, rfl⟩ := Prod.mk.inj heq
    exact ⟨by rw [depth]; all_goals simp, by rw [readWord?_append t hread]; rfl⟩
  · obtain ⟨⟨n, rest'⟩, hread, heq⟩ := Option.map_eq_some_iff.mp h
    obtain ⟨rfl, rfl⟩ := Prod.mk.inj heq
    exact ⟨by rw [depth]; all_goals simp, by rw [(local_readNumber? true).append t hread ht]; rfl⟩
  · obtain ⟨⟨n, rest'⟩, hread, heq⟩ := Option.map_eq_some_iff.mp h
    obtain ⟨rfl, rfl⟩ := Prod.mk.inj heq
    refine ⟨by rw [depth]; all_goals simp, ?_⟩
    rw [← List.cons_append, (local_readNumber? false).append t hread ht]
    rfl

/-- Between its marks a value is empty or read by another reader, which is given one level less. It
is read in front of other text if that reader reads in front of it. -/
theorem read?_enclosed_append {opened closed : UInt8} {empty v : JsonValue}
    {inside : Nat → Nat → List UInt8 → Option (JsonValue × List UInt8)} {levels : Nat}
    {s inner rest : List UInt8} (hempty : empty.depth = 1)
    (hstep : ∀ {k l : Nat} {s inner after : List UInt8} {b : UInt8}, skipBlank s = opened :: inner →
      skipBlank inner = b :: after → read? (k + 1) (l + 1) s =
        if b = closed then some (empty, after) else inside k l (b :: after))
    (hzero : skipBlank s = opened :: inner → read? (fuel + 1) 0 s = none)
    (hnil : skipBlank s = opened :: inner → skipBlank inner = [] → read? (fuel + 1) levels s = none)
    (hinside : ∀ {l : Nat} {s : List UInt8}, inside fuel l s = some (v, rest) →
      ∃ d, v.depth = d + 1 ∧ d ≤ l ∧ ∀ ⦃fuel' levels' : Nat⦄ (t : List UInt8), fuel ≤ fuel' →
        d ≤ levels' → inside fuel' levels' (s ++ t) = some (v, rest ++ t))
    (hs : skipBlank s = opened :: inner) (h : read? (fuel + 1) levels s = some (v, rest)) :
    v.depth ≤ levels ∧ ∀ ⦃fuel' levels' : Nat⦄ (t : List UInt8), fuel + 1 ≤ fuel' →
      v.depth ≤ levels' → read? fuel' levels' (s ++ t) = some (v, rest ++ t) := by
  cases levels with
  | zero =>
    rw [hzero hs] at h
    contradiction
  | succ levels =>
    cases hinner : skipBlank inner with
    | nil =>
      rw [hnil hs hinner] at h
      contradiction
    | cons c after =>
      have hstep' : ∀ {k l : Nat} (t : List UInt8), read? (k + 1) (l + 1) (s ++ t) =
          if c = closed then some (empty, after ++ t) else inside k l (c :: after ++ t) :=
        fun t => hstep (skipBlank_append_of_cons hs t) (skipBlank_append_of_cons hinner t)
      rw [hstep hs hinner] at h
      split_ifs at h with hclose
      · obtain ⟨rfl, rfl⟩ := Prod.mk.inj (Option.some.inj h)
        refine ⟨by omega, fun fuel' levels' t hfuel hdeep => ?_⟩
        obtain ⟨k, rfl⟩ : ∃ k, fuel' = k + 1 := ⟨fuel' - 1, by omega⟩
        obtain ⟨l, rfl⟩ : ∃ l, levels' = l + 1 := ⟨levels' - 1, by omega⟩
        rw [hstep', if_pos hclose]
      · obtain ⟨d, hdepth, hlevels, hread⟩ := hinside h
        refine ⟨by omega, fun fuel' levels' t hfuel hdeep => ?_⟩
        obtain ⟨k, rfl⟩ : ∃ k, fuel' = k + 1 := ⟨fuel' - 1, by omega⟩
        obtain ⟨l, rfl⟩ : ∃ l, levels' = l + 1 := ⟨levels' - 1, by omega⟩
        rw [hstep', if_neg hclose]
        exact hread t (by omega) (by omega)

theorem ReadsValue.succ (hitems : ReadsItems fuel) (hmembers : ReadsMembers fuel) :
    ReadsValue (fuel + 1) := by
  intro levels s rest v h
  cases hs : skipBlank s with
  | nil =>
    rw [read?_of_nil hs] at h
    contradiction
  | cons b inner =>
    have hblank := skipBlank_append_of_cons hs
    by_cases hbrace : b = 0x7B
    · subst hbrace
      obtain ⟨hdepth, hread⟩ := read?_enclosed_append (by simp [depth_object, depthMembers])
        read?_brace read?_brace_zero read?_brace_of_nil
        (fun hinside => by
          obtain ⟨members, rfl, hlevels, hread⟩ := hmembers hinside
          exact ⟨_, depth_object _, hlevels, hread⟩) hs h
      exact ⟨hdepth, fun fuel' levels' t hfuel hdeep _ => hread t hfuel hdeep⟩
    · by_cases hbracket : b = 0x5B
      · subst hbracket
        obtain ⟨hdepth, hread⟩ := read?_enclosed_append (by simp [depth_array, depthItems])
          read?_bracket read?_bracket_zero read?_bracket_of_nil
          (fun hinside => by
            obtain ⟨items, rfl, hlevels, hread⟩ := hitems hinside
            exact ⟨_, depth_array _, hlevels, hread⟩) hs h
        exact ⟨hdepth, fun fuel' levels' t hfuel hdeep _ => hread t hfuel hdeep⟩
      · rw [read?_scalar hs hbrace hbracket] at h
        obtain ⟨hdepth, -⟩ := readScalar?_append [] h fun _ _ _ hnil => by contradiction
        refine ⟨by omega, fun fuel' levels' t hfuel _ ht => ?_⟩
        obtain ⟨k, rfl⟩ : ∃ k, fuel' = k + 1 := ⟨fuel' - 1, by omega⟩
        rw [read?_scalar (hblank t) hbrace hbracket]
        exact (readScalar?_append t h ht).2

/-- **A value, items and members are read in front of other text** just as they are read alone. -/
theorem reads (fuel : Nat) : ReadsValue fuel ∧ ReadsItems fuel ∧ ReadsMembers fuel := by
  induction fuel with
  | zero =>
    refine ⟨?_, ?_, ?_⟩
    · intro levels s rest v h
      rw [read?] at h
      contradiction
    · intro levels before s rest v h
      rw [readItems?] at h
      contradiction
    · intro levels before s rest v h
      rw [readMembers?] at h
      contradiction
  | succ fuel ih =>
    obtain ⟨hvalue, hitems, hmembers⟩ := ih
    exact ⟨ReadsValue.succ hitems hmembers, ReadsItems.succ hvalue hitems,
      ReadsMembers.succ hvalue hmembers⟩

end

section

variable {fuel levels : Nat} {s rest : List UInt8} {v : JsonValue}

/-- **A value that is read is not nested too deep.** -/
theorem depth_le_of_read? (h : read? fuel levels s = some (v, rest)) : v.depth ≤ levels :=
  ((reads fuel).1 h).1

/-- **A value is read in front of other text**, if that cannot continue a number, with more fuel and
with as many levels as it takes. -/
theorem read?_append (h : read? fuel levels s = some (v, rest)) {fuel' levels' : Nat}
    (hfuel : fuel ≤ fuel') (hlevels : v.depth ≤ levels') {t : List UInt8} (ht : Delimits t) :
    read? fuel' levels' (s ++ t) = some (v, rest ++ t) :=
  ((reads fuel).1 h).2 t hfuel hlevels fun _ => ht

/-- Fuel and levels do not decide what is read, only whether it is. -/
theorem eq_of_read? {fuel' levels' : Nat} {v' : JsonValue} {rest' : List UInt8}
    (h : read? fuel levels s = some (v, rest)) (h' : read? fuel' levels' s = some (v', rest')) :
    v = v' := by
  have hend : Delimits [] := fun b rest heq => by contradiction
  have hmax := read?_append h (Nat.le_max_left fuel fuel') (Nat.le_max_left v.depth v'.depth) hend
  rw [read?_append h' (Nat.le_max_right fuel fuel') (Nat.le_max_right v.depth v'.depth) hend]
    at hmax
  exact (Prod.mk.inj (Option.some.inj hmax)).1.symm

end

/-! ## Arrays of texts -/

section

variable {fuel levels : Nat} {s rest : List UInt8} {v : JsonValue}

theorem read?_skipBlank (fuel levels : Nat) (s : List UInt8) :
    read? fuel levels (skipBlank s) = read? fuel levels s := by
  cases fuel with
  | zero => rw [read?, read?]
  | succ fuel => rw [read?, read?, skipBlank_skipBlank]

theorem readItems?_skipBlank (fuel levels : Nat) (before : List JsonValue) (s : List UInt8) :
    readItems? fuel levels before (skipBlank s) = readItems? fuel levels before s := by
  cases fuel with
  | zero => rw [readItems?, readItems?]
  | succ fuel => rw [readItems?, readItems?, read?_skipBlank]

/-- No value starts with the end of an array. -/
theorem exists_ne_of_read? (h : read? fuel levels s = some (v, rest)) :
    ∃ b inner, skipBlank s = b :: inner ∧ b ≠ 0x5D := by
  cases hs : skipBlank s with
  | nil =>
    rw [read?_of_nil hs] at h
    contradiction
  | cons b inner =>
    refine ⟨b, inner, rfl, ?_⟩
    rintro rfl
    cases fuel with
    | zero =>
      rw [read?] at h
      contradiction
    | succ fuel =>
      rw [read?_scalar hs (by decide) (by decide)] at h
      have hnone : readScalar? 0x5D inner = none := rfl
      rw [hnone] at h
      contradiction

/-- What starts with the beginning of an array is one. -/
theorem exists_array_of_read? (h : read? fuel levels (0x5B :: s) = some (v, rest)) :
    ∃ items, v = array items := by
  have hs : skipBlank (0x5B :: s) = 0x5B :: s := rfl
  cases fuel with
  | zero =>
    rw [read?] at h
    contradiction
  | succ fuel =>
    cases levels with
    | zero =>
      rw [read?_bracket_zero hs] at h
      contradiction
    | succ levels =>
      cases hinner : skipBlank s with
      | nil =>
        rw [read?_bracket_of_nil hs hinner] at h
        contradiction
      | cons b after =>
        rw [read?_bracket hs hinner] at h
        split_ifs at h
        · exact ⟨[], (Prod.mk.inj (Option.some.inj h)).1.symm⟩
        · obtain ⟨items, hv, -⟩ := (reads fuel).2.1 h
          exact ⟨_, hv⟩

theorem parse?_eq_some_iff :
    parse? s = some v ↔
      ∃ rest, read? (2 * s.length + 2) maxDepth s = some (v, rest) ∧ skipBlank rest = [] := by
  rw [parse?]
  cases read? (2 * s.length + 2) maxDepth s with
  | none => simp
  | some r =>
    obtain ⟨w, rest⟩ := r
    simp only [Option.some.injEq, Prod.mk.injEq, List.isEmpty_iff]
    constructor
    · intro h
      split_ifs at h with hrest
      exact ⟨rest, ⟨Option.some.inj h, rfl⟩, hrest⟩
    · rintro ⟨rest', ⟨rfl, rfl⟩, hrest⟩
      rw [if_pos hrest]

/-- What comes behind an item cannot continue it. -/
theorem delimits_cons {b : UInt8} (h : b = 0x2C ∨ b = 0x5D) (t : List UInt8) :
    Delimits (b :: t) := by
  intro c rest heq
  obtain ⟨rfl, -⟩ := List.cons.inj heq
  rcases h with rfl | rfl
  · decide
  · decide

/-- An item of its own text is read in front of a comma or the end. -/
theorem exists_read?_of_parse? (h : parse? s = some v) {b : UInt8} (hb : b = 0x2C ∨ b = 0x5D)
    (t : List UInt8) (hfuel : 2 * s.length + 2 ≤ fuel) (hlevels : v.depth ≤ levels) :
    ∃ middle, read? fuel levels (s ++ b :: t) = some (v, middle) ∧ skipBlank middle = b :: t := by
  obtain ⟨rest, hread, hrest⟩ := parse?_eq_some_iff.mp h
  refine ⟨rest ++ b :: t, read?_append hread hfuel hlevels (delimits_cons hb t), ?_⟩
  rw [skipBlank_of_blank _ hrest]
  rcases hb with rfl | rfl
  · rfl
  · rfl

end

/-- The text of an array whose items have given texts. -/
def arrayText (texts : List (List UInt8)) : List UInt8 :=
  0x5B :: ([0x2C].intercalate texts ++ [0x5D])

theorem intercalate_cons_cons (x : UInt8) (s t : List UInt8) (ts : List (List UInt8)) :
    [x].intercalate (s :: t :: ts) = s ++ x :: [x].intercalate (t :: ts) := by
  simp [List.intercalate]

/-- Each text is a part of the text of the array. -/
theorem length_le_of_mem {t : List UInt8} {texts : List (List UInt8)} (h : t ∈ texts) :
    t.length ≤ (arrayText texts).length := by
  have hitems : t.length ≤ ([0x2C].intercalate texts).length := by
    induction texts with
    | nil => contradiction
    | cons u texts ih =>
      cases texts with
      | nil =>
        exact Nat.le_of_eq (by rw [List.mem_singleton.mp h, List.intercalate_singleton])
      | cons v texts =>
        rw [intercalate_cons_cons, List.length_append, List.length_cons]
        rcases List.mem_cons.mp h with rfl | hmem
        · omega
        · have := ih hmem
          omega
  rw [arrayText, List.length_cons, List.length_append]
  omega

/-- Items are read one by one, up to the end of the array. -/
theorem readItems?_intercalate {texts : List (List UInt8)} {vs : List JsonValue} {levels : Nat}
    (hread : List.Forall₂ (fun t v => parse? t = some v) texts vs) (hne : texts ≠ [])
    (hlevels : ∀ v ∈ vs, v.depth ≤ levels) {fuel : Nat} {after : List UInt8}
    (hfuel : 2 * ([0x2C].intercalate texts).length + 3 ≤ fuel)
    (before : List JsonValue) :
    readItems? fuel levels before ([0x2C].intercalate texts ++ 0x5D :: after)
      = some (array (before.reverse ++ vs), after) := by
  induction hread generalizing fuel before with
  | nil => exact absurd rfl hne
  | @cons t v ts vs hfirst hrest ih =>
    obtain ⟨k, rfl⟩ : ∃ k, fuel = k + 1 := ⟨fuel - 1, by omega⟩
    have hv := hlevels v List.mem_cons_self
    cases hrest with
    | nil =>
      rw [List.intercalate_singleton] at hfuel ⊢
      have hk : 2 * t.length + 2 ≤ k := by omega
      obtain ⟨middle, hread, hmiddle⟩ := exists_read?_of_parse? hfirst (.inr rfl) after hk hv
      rw [readItems?_step hread hmiddle, if_neg (by decide), if_pos rfl, List.reverse_cons]
    | @cons u w us ws hsecond hrest =>
      rw [intercalate_cons_cons] at hfuel ⊢
      simp only [List.length_append, List.length_cons] at hfuel
      have hk : 2 * t.length + 2 ≤ k := by omega
      obtain ⟨middle, hread, hmiddle⟩ := exists_read?_of_parse? hfirst (.inl rfl)
        ([0x2C].intercalate (u :: us) ++ 0x5D :: after) hk hv
      rw [List.append_assoc, List.cons_append, readItems?_step hread hmiddle, if_pos rfl,
        ih (List.cons_ne_nil u us) (fun x hx => hlevels x (List.mem_cons_of_mem v hx)) (by omega)]
      simp

/-- The text of an array does not close it before its first item. -/
theorem exists_ne_of_intercalate {t : List UInt8} {v : JsonValue} (h : parse? t = some v)
    (ts : List (List UInt8)) (after : List UInt8) :
    ∃ b inner, skipBlank ([0x2C].intercalate (t :: ts) ++ after) = b :: inner ∧ b ≠ 0x5D := by
  obtain ⟨rest, hread, -⟩ := parse?_eq_some_iff.mp h
  obtain ⟨b, inner, hs, hb⟩ := exists_ne_of_read? hread
  have hfront : ∃ behind, [0x2C].intercalate (t :: ts) = t ++ behind := by
    cases ts with
    | nil => exact ⟨[], by rw [List.intercalate_singleton, List.append_nil]⟩
    | cons u us => exact ⟨_, intercalate_cons_cons 0x2C t u us⟩
  obtain ⟨behind, heq⟩ := hfront
  refine ⟨b, inner ++ (behind ++ after), ?_, hb⟩
  rw [heq, List.append_assoc, skipBlank_append_of_cons hs]

/-- **An array is read item by item**, each as it is read alone, if none is nested so deep that the
array is nested too deep. -/
theorem parse?_arrayText {texts : List (List UInt8)} {vs : List JsonValue}
    (hread : List.Forall₂ (fun t v => parse? t = some v) texts vs) (hne : texts ≠ [])
    (hdepth : ∀ v ∈ vs, v.depth < maxDepth) {blanks : List UInt8}
    (hblanks : skipBlank blanks = []) :
    parse? (arrayText texts ++ blanks) = some (array vs) := by
  obtain ⟨t, ts, rfl⟩ := List.exists_cons_of_ne_nil hne
  obtain ⟨v, vs', hfirst, -, rfl⟩ := List.forall₂_cons_left_iff.mp hread
  have htext : arrayText (t :: ts) ++ blanks =
      0x5B :: ([0x2C].intercalate (t :: ts) ++ 0x5D :: blanks) := by
    rw [arrayText, List.cons_append, List.append_assoc, List.singleton_append]
  obtain ⟨b, inner, hinner, hb⟩ := exists_ne_of_intercalate hfirst ts (0x5D :: blanks)
  have hlength : (arrayText (t :: ts) ++ blanks).length =
      ([0x2C].intercalate (t :: ts)).length + blanks.length + 2 := by
    rw [htext]
    simp only [List.length_cons, List.length_append]
    omega
  obtain ⟨levels, hlevels⟩ : ∃ levels, maxDepth = levels + 1 := ⟨9999, rfl⟩
  obtain ⟨fuel, hfuel⟩ : ∃ fuel, 2 * (arrayText (t :: ts) ++ blanks).length + 2 = fuel + 1 :=
    ⟨2 * (arrayText (t :: ts) ++ blanks).length + 1, rfl⟩
  refine parse?_eq_some_iff.mpr ⟨blanks, ?_, hblanks⟩
  rw [hfuel, hlevels, htext, read?_bracket rfl hinner, if_neg hb, ← hinner, readItems?_skipBlank,
    readItems?_intercalate hread hne (fun w hw => ?_) (by omega), List.reverse_nil, List.nil_append]
  have := hdepth w hw
  omega

/-- An item that takes all levels leaves none for the array. -/
theorem parse?_arrayText_eq_none {t : List UInt8} {v : JsonValue} (h : parse? t = some v)
    (hdepth : maxDepth ≤ v.depth) (blanks : List UInt8) :
    parse? (arrayText [t] ++ blanks) = none := by
  have htext : arrayText [t] ++ blanks = 0x5B :: ([0x2C].intercalate [t] ++ 0x5D :: blanks) := by
    rw [arrayText, List.cons_append, List.append_assoc, List.singleton_append]
  obtain ⟨b, inner, hinner, hb⟩ := exists_ne_of_intercalate h [] (0x5D :: blanks)
  obtain ⟨levels, hlevels⟩ : ∃ levels, maxDepth = levels + 1 := ⟨9999, rfl⟩
  obtain ⟨fuel, hfuel⟩ : ∃ fuel, 2 * (arrayText [t] ++ blanks).length + 2 = fuel + 2 :=
    ⟨_, rfl⟩
  have hlength : 2 * t.length + 2 ≤ fuel := by
    rw [htext, List.intercalate_singleton] at hfuel
    simp only [List.length_cons, List.length_append] at hfuel
    omega
  refine Option.eq_none_iff_forall_ne_some.mpr fun w hw => ?_
  obtain ⟨rest, hread, -⟩ := parse?_eq_some_iff.mp hw
  rw [hfuel, hlevels, htext, read?_bracket rfl hinner, if_neg hb, ← hinner, readItems?_skipBlank,
    List.intercalate_singleton] at hread
  -- the item is read with one level less, although it takes them all
  obtain ⟨u, middle, -, -, hitem, -⟩ := exists_of_readItems? hread
  obtain ⟨_, hwhole, -⟩ := exists_read?_of_parse? h (.inr rfl) blanks hlength (Nat.le_refl _)
  have hu := depth_le_of_read? hitem
  rw [eq_of_read? hitem hwhole] at hu
  omega

/-! ## Nesting -/

/-- Arrays inside each other, with an empty one inside them all. -/
def nested : Nat → JsonValue
  | 0 => array []
  | n + 1 => array [nested n]

/-- The text of arrays inside each other. -/
def nestedText : Nat → List UInt8
  | 0 => [0x5B, 0x5D]
  | n + 1 => 0x5B :: (nestedText n ++ [0x5D])

theorem length_nestedText (n : Nat) : (nestedText n).length = 2 * n + 2 := by
  induction n with
  | zero => rfl
  | succ n ih =>
    rw [nestedText, List.length_cons, List.length_append, ih, List.length_singleton]
    omega

theorem depth_nested (n : Nat) : (nested n).depth = n + 1 := by
  induction n with
  | zero => rfl
  | succ n ih =>
    rw [nested, depth_array, depthItems, depthItems, ih, Nat.max_zero]

/-- As many levels are needed as there are arrays inside each other. -/
theorem read?_nestedText {n fuel levels : Nat} (hfuel : 2 * n + 1 ≤ fuel) (hlevels : n < levels)
    (rest : List UInt8) : read? fuel levels (nestedText n ++ rest) = some (nested n, rest) := by
  induction n generalizing fuel levels rest with
  | zero =>
    obtain ⟨fuel, rfl⟩ : ∃ k, fuel = k + 1 := ⟨fuel - 1, by omega⟩
    obtain ⟨levels, rfl⟩ : ∃ l, levels = l + 1 := ⟨levels - 1, by omega⟩
    exact (read?_bracket rfl rfl).trans (if_pos rfl)
  | succ n ih =>
    obtain ⟨fuel, rfl⟩ : ∃ k, fuel = k + 2 := ⟨fuel - 2, by omega⟩
    obtain ⟨levels, rfl⟩ : ∃ l, levels = l + 1 := ⟨levels - 1, by omega⟩
    have hinner : read? fuel levels (nestedText n ++ 0x5D :: rest)
        = some (nested n, 0x5D :: rest) := ih (by omega) (by omega) (0x5D :: rest)
    obtain ⟨b, inner, hb, hne⟩ := exists_ne_of_read? hinner
    rw [nestedText, List.cons_append, List.append_assoc, List.singleton_append,
      read?_bracket rfl hb, if_neg hne, ← hb, readItems?_skipBlank,
      readItems?_step hinner rfl, if_neg (by decide), if_pos rfl]
    rfl

end JsonValue

end BytecodeHost
