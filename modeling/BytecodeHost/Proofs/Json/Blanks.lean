import BytecodeHost.Proofs.Json.Reading

/-!
# Blanks around a JSON value

A text is read as it is with blanks in front of it or behind it, whether it is read as a value or
not. In front, the reader skips them before it looks at anything. Behind, nothing can go on in them:
a number ends there, a word has none, and a string that is still open, where blanks are text, is
never closed. So what is read in front of blanks is read without them.

The reader is given fuel for each byte, and so more of it for a text with blanks. It makes no
difference: a value takes two units for each of its bytes and one more.

## Main definitions

* `JsonValue.LeavesBlanks` — readers that take nothing from blanks behind their input
* `JsonValue.Ends` — the same of readers with fuel

## Main results

* `JsonValue.read?_of_append` — a value in front of blanks is there without them
* `JsonValue.parse?_of_read?` — fuel for the bytes of a value is enough
* `JsonValue.parse?_append_blank`, `JsonValue.parse?_blank_append` — blanks around a text do not
  count
-/

namespace BytecodeHost

namespace JsonValue

/-! ## Blanks -/

section

variable {b : UInt8} {s w rest : List UInt8}

theorem skipBlank_cons_eq_nil : skipBlank (b :: w) = [] ↔ isBlank b = true ∧ skipBlank w = [] := by
  rw [skipBlank, List.dropWhile_cons]
  split_ifs with hb
  · exact ⟨fun h => ⟨hb, h⟩, fun h => h.2⟩
  · exact ⟨fun h => by contradiction, fun h => absurd h.1 hb⟩

/-- There are four blanks. -/
theorem isBlank_iff : isBlank b = true ↔ b = 0x20 ∨ b = 0x09 ∨ b = 0x0A ∨ b = 0x0D := by
  simp [isBlank, or_assoc]

/-- Blanks cannot continue a number. -/
theorem delimits_of_blank (h : skipBlank w = []) : Delimits w := by
  rintro b rest rfl
  obtain rfl | rfl | rfl | rfl := isBlank_iff.mp (skipBlank_cons_eq_nil.mp h).1 <;> decide

/-- What starts with something else than a blank does not start in the blanks behind it. -/
theorem exists_cons_of_append (hw : skipBlank w = []) (h : b :: rest = s ++ w)
    (hb : isBlank b = false) : ∃ s', s = b :: s' ∧ rest = s' ++ w := by
  cases s with
  | nil =>
    rw [List.nil_append] at h
    rw [← h, skipBlank_cons_eq_nil, hb] at hw
    exact absurd hw.1 Bool.false_ne_true
  | cons c s =>
    rw [List.cons_append, List.cons.injEq] at h
    obtain ⟨rfl, rfl⟩ := h
    exact ⟨s, rfl, rfl⟩

/-- The first byte behind blanks is found in front of other blanks, or nowhere. -/
theorem skipBlank_append_blank (hw : skipBlank w = []) :
    skipBlank (s ++ w) = if skipBlank s = [] then [] else skipBlank s ++ w := by
  split_ifs with hs
  · rw [skipBlank_of_blank w hs, hw]
  · exact skipBlank_append w hs

theorem exists_skipBlank_of_append (hw : skipBlank w = []) (h : skipBlank (s ++ w) = b :: rest) :
    ∃ s', skipBlank s = b :: s' ∧ rest = s' ++ w := by
  rw [skipBlank_append_blank hw] at h
  split_ifs at h with hs
  cases hskip : skipBlank s with
  | nil => exact absurd hskip hs
  | cons c s' =>
    rw [hskip, List.cons_append, List.cons.injEq] at h
    obtain ⟨rfl, rfl⟩ := h
    exact ⟨s', rfl, rfl⟩

end

/-! ## Readers that leave blanks -/

/-- A reader that takes nothing from blanks behind its input. -/
def LeavesBlanks {α : Type} (p : List UInt8 → Option (α × List UInt8)) : Prop :=
  ∀ ⦃s w rest : List UInt8⦄ ⦃a : α⦄, skipBlank w = [] → p (s ++ w) = some (a, rest) →
    ∃ r, r <:+ s ∧ rest = r ++ w ∧ p s = some (a, r)

namespace LeavesBlanks

variable {α β : Type} {p : List UInt8 → Option (α × List UInt8)}

/-- A reader that reads nothing. -/
theorem pure (a : α) : LeavesBlanks fun s => some (a, s) := by
  intro s w rest b _ h
  obtain ⟨rfl, rfl⟩ := Prod.mk.inj (Option.some.inj h)
  exact ⟨s, List.suffix_refl s, rfl, rfl⟩

/-- One reader after the other. -/
theorem bind (hp : LeavesBlanks p) {q : α → List UInt8 → Option (β × List UInt8)}
    (hq : ∀ a, LeavesBlanks (q a)) : LeavesBlanks fun s => (p s).bind fun r => q r.1 r.2 := by
  intro s w rest b hw h
  obtain ⟨⟨a, middle⟩, hfirst, hsecond⟩ := Option.bind_eq_some_iff.mp h
  obtain ⟨r, hsuffix, rfl, hr⟩ := hp hw hfirst
  obtain ⟨r', hsuffix', hrest, hr'⟩ := hq a hw hsecond
  exact ⟨r', hsuffix'.trans hsuffix, hrest, by simp only [hr, Option.bind_some, hr']⟩

/-- A reader whose value is made into another one. -/
theorem map (hp : LeavesBlanks p) (f : α → β) :
    LeavesBlanks fun s => (p s).map fun r => (f r.1, r.2) := by
  intro s w rest b hw h
  obtain ⟨⟨a, rest'⟩, hread, heq⟩ := Option.map_eq_some_iff.mp h
  obtain ⟨rfl, rfl⟩ := Prod.mk.inj heq
  obtain ⟨r, hsuffix, hrest, hr⟩ := hp hw hread
  exact ⟨r, hsuffix, hrest, by simp only [hr, Option.map_some]⟩

end LeavesBlanks

/-! ### Words -/

theorem readWord?_of_append {word s w rest : List UInt8} (hw : skipBlank w = [])
    (hword : ∀ b ∈ word, isBlank b = false) (h : readWord? word (s ++ w) = some rest) :
    ∃ r, r <:+ s ∧ rest = r ++ w ∧ readWord? word s = some r := by
  induction word generalizing s with
  | nil =>
    rw [readWord?] at h
    exact ⟨s, List.suffix_refl s, (Option.some.inj h).symm, by rw [readWord?]⟩
  | cons c word ih =>
    cases htext : s ++ w with
    | nil =>
      rw [htext] at h
      contradiction
    | cons b t =>
      rw [htext, readWord?] at h
      split_ifs at h with hb
      obtain ⟨s', rfl, rfl⟩ := exists_cons_of_append hw htext.symm
        (hb ▸ hword c List.mem_cons_self)
      obtain ⟨r, hsuffix, hrest, hr⟩ := ih (fun x hx => hword x (List.mem_cons_of_mem c hx)) h
      exact ⟨r, hsuffix.trans (List.suffix_cons b s'), hrest, by rw [readWord?, if_pos hb, hr]⟩

theorem readMark?_of_append {mark : UInt8} {s w rest : List UInt8} (hw : skipBlank w = [])
    (hmark : isBlank mark = false) (h : readMark? mark (s ++ w) = some rest) :
    ∃ r, r <:+ s ∧ rest = r ++ w ∧ readMark? mark s = some r := by
  rw [readMark?, skipBlank_append_blank hw] at h
  split_ifs at h with hs
  · contradiction
  · have hword : ∀ b ∈ [mark], isBlank b = false := fun b hb => by rwa [List.mem_singleton.mp hb]
    obtain ⟨r, hsuffix, hrest, hr⟩ := readWord?_of_append hw hword h
    exact ⟨r, hsuffix.trans (List.dropWhile_suffix isBlank), hrest, hr⟩

/-- A reader of one word, which stands for a value. -/
theorem leavesBlanks_readWord? {α : Type} {word : List UInt8}
    (hword : ∀ b ∈ word, isBlank b = false) (a : α) :
    LeavesBlanks fun s => (readWord? word s).map (a, ·) := by
  intro s w rest x hw h
  obtain ⟨rest', hread, heq⟩ := Option.map_eq_some_iff.mp h
  obtain ⟨rfl, rfl⟩ := Prod.mk.inj heq
  obtain ⟨r, hsuffix, hrest, hr⟩ := readWord?_of_append hw hword hread
  exact ⟨r, hsuffix, hrest, by simp only [hr, Option.map_some]⟩

/-! ### Strings -/

/-- Blanks are neither digits of a code unit nor letters of an escape. -/
theorem unescaped_of_blank {b : UInt8} (h : isBlank b = true) :
    hexDigit? b = none ∧ escapedByte? b = none := by
  obtain rfl | rfl | rfl | rfl := isBlank_iff.mp h <;> decide

theorem not_blank_of_escapedByte? {b x : UInt8} (h : escapedByte? b = some x) :
    isBlank b = false := by
  by_contra hblank
  rw [Bool.not_eq_false] at hblank
  rw [(unescaped_of_blank hblank).2] at h
  contradiction

theorem not_blank_of_codeUnit? {a b c d : UInt8} {unit : Nat} (h : codeUnit? a b c d = some unit) :
    isBlank a = false ∧ isBlank b = false ∧ isBlank c = false ∧ isBlank d = false := by
  have digit : ∀ {x : UInt8} {n : Nat}, hexDigit? x = some n → isBlank x = false := by
    intro x n hx
    by_contra hblank
    rw [Bool.not_eq_false] at hblank
    rw [(unescaped_of_blank hblank).1] at hx
    contradiction
  obtain ⟨m, ha, h⟩ := Option.bind_eq_some_iff.mp h
  obtain ⟨n, hb, h⟩ := Option.bind_eq_some_iff.mp h
  obtain ⟨k, hc, h⟩ := Option.bind_eq_some_iff.mp h
  obtain ⟨l, hd, -⟩ := Option.bind_eq_some_iff.mp h
  exact ⟨digit ha, digit hb, digit hc, digit hd⟩

/-- A string that is read is closed in front of the blanks. -/
theorem readString?_of_append {out : ByteArray} {pending : Option Nat} {s w rest : List UInt8}
    {x : ByteArray} (hw : skipBlank w = [])
    (h : readString? out pending (s ++ w) = some (x, rest)) :
    ∃ r, r <:+ s ∧ rest = r ++ w ∧ readString? out pending s = some (x, r) := by
  generalize htext : s ++ w = t at h
  fun_induction readString? out pending t generalizing s w with
  | case1 | case4 | case6 | case7 => contradiction
  | case2 out pending t =>
    obtain ⟨s, rfl, rfl⟩ := exists_cons_of_append hw htext.symm (by decide)
    obtain ⟨rfl, rfl⟩ := Prod.mk.inj (Option.some.inj h)
    exact ⟨s, List.suffix_cons _ s, rfl, rfl⟩
  | case3 out pending a b c d t unit hunit out' pending' hpush ih =>
    obtain ⟨ha, hb, hc, hd⟩ := not_blank_of_codeUnit? hunit
    obtain ⟨s₁, rfl, h₁⟩ := exists_cons_of_append hw htext.symm (by decide)
    obtain ⟨s₂, rfl, h₂⟩ := exists_cons_of_append hw h₁ (by decide)
    obtain ⟨s₃, rfl, h₃⟩ := exists_cons_of_append hw h₂ ha
    obtain ⟨s₄, rfl, h₄⟩ := exists_cons_of_append hw h₃ hb
    obtain ⟨s₅, rfl, h₅⟩ := exists_cons_of_append hw h₄ hc
    obtain ⟨s₆, rfl, rfl⟩ := exists_cons_of_append hw h₅ hd
    obtain ⟨r, hsuffix, hrest, hr⟩ := ih hw rfl h
    refine ⟨r, hsuffix.trans ?_, hrest, by simp only [readString?, hunit, hpush, hr]⟩
    exact ⟨[_, _, a, b, c, d], rfl⟩
  | case5 out pending c t hne y hescape ih =>
    have hc : c ≠ 0x75 := by
      rintro rfl
      contradiction
    obtain ⟨s₁, rfl, h₁⟩ := exists_cons_of_append hw htext.symm (by decide)
    obtain ⟨s₂, rfl, rfl⟩ := exists_cons_of_append hw h₁ (not_blank_of_escapedByte? hescape)
    obtain ⟨r, hsuffix, hrest, hr⟩ := ih hw rfl h
    refine ⟨r, hsuffix.trans ⟨[_, c], rfl⟩, hrest, ?_⟩
    rw [readString?, hescape]
    · exact hr
    · intro _ _ _ _ _ heq
      exact absurd heq hc
  | case8 out pending c t hquote hunit hescape hplain ih =>
    have hc : c ≠ 0x5C := fun heq => hplain (.inr heq)
    cases s with
    | nil =>
      -- an open string goes on in the blanks, and is still open at their end
      rw [List.nil_append] at htext
      rw [htext, skipBlank_cons_eq_nil] at hw
      obtain ⟨r, -, -, hr⟩ := ih hw.2 (List.nil_append t) h
      contradiction
    | cons b s =>
      rw [List.cons_append, List.cons.injEq] at htext
      obtain ⟨rfl, rfl⟩ := htext
      obtain ⟨r, hsuffix, hrest, hr⟩ := ih hw rfl h
      refine ⟨r, hsuffix.trans (List.suffix_cons b s), hrest, ?_⟩
      rw [readString?, if_neg hplain]
      · exact hr
      · exact hquote
      · intro _ _ _ _ _ heq
        exact absurd heq hc
      · intro _ _ heq
        exact absurd heq hc

theorem leavesBlanks_readText : LeavesBlanks readText := by
  intro s w rest text hw h
  rw [readText] at h
  cases hread : readString? .empty none (s ++ w) with
  | none =>
    rw [hread] at h
    contradiction
  | some r =>
    rw [hread] at h
    obtain ⟨rfl, rfl⟩ := Prod.mk.inj (Option.some.inj h)
    obtain ⟨r', hsuffix, hrest, hr'⟩ := readString?_of_append hw hread
    exact ⟨r', hsuffix, hrest, by rw [readText, hr']⟩

/-! ### Numbers -/

theorem leavesBlanks_readDigits? : LeavesBlanks readDigits? := by
  intro s w rest digits hw h
  rw [readDigits?] at h
  cases hspan : s.span isDigit with
  | mk front behind =>
    rw [span_append hspan fun _ => delimits_of_blank hw] at h
    cases front with
    | nil => contradiction
    | cons b front =>
      obtain ⟨rfl, rfl⟩ := Prod.mk.inj (Option.some.inj h)
      refine ⟨behind, ?_, rfl, by rw [readDigits?, hspan]⟩
      rw [List.span_eq_takeWhile_dropWhile] at hspan
      exact (Prod.mk.inj hspan).2 ▸ List.dropWhile_suffix isDigit

theorem readDigits?_blank {w : List UInt8} (hw : skipBlank w = []) : readDigits? w = none := by
  refine Option.eq_none_iff_forall_ne_some.mpr fun ⟨digits, rest⟩ h => ?_
  obtain ⟨r, -, -, hr⟩ := leavesBlanks_readDigits? (s := []) hw h
  contradiction

theorem leavesBlanks_readWhole? : LeavesBlanks readWhole? := by
  intro s w rest digits hw h
  cases s with
  | nil =>
    rw [List.nil_append] at h
    cases w with
    | nil => contradiction
    | cons b w =>
      have hb : b ≠ 0x30 := by
        rintro rfl
        exact absurd (skipBlank_cons_eq_nil.mp hw).1 (by decide)
      rw [readWhole?_cons, if_neg hb, readDigits?_blank hw] at h
      contradiction
  | cons b s =>
    rw [List.cons_append, readWhole?_cons] at h
    rw [readWhole?_cons]
    split_ifs at h ⊢
    · obtain ⟨rfl, rfl⟩ := Prod.mk.inj (Option.some.inj h)
      exact ⟨s, List.suffix_cons b s, rfl, rfl⟩
    · exact leavesBlanks_readDigits? (s := b :: s) hw h

theorem leavesBlanks_readFraction? : LeavesBlanks readFraction? := by
  intro s w rest digits hw h
  cases s with
  | nil =>
    have hnone : readFraction? w = some ([], w) := by
      cases w with
      | nil => rfl
      | cons b w => rw [readFraction?_cons, if_neg (delimits_of_blank hw b w rfl).2.1]
    rw [List.nil_append, hnone] at h
    obtain ⟨rfl, rfl⟩ := Prod.mk.inj (Option.some.inj h)
    exact ⟨[], List.suffix_refl [], rfl, rfl⟩
  | cons b s =>
    rw [List.cons_append, readFraction?_cons] at h
    rw [readFraction?_cons]
    split_ifs at h ⊢
    · obtain ⟨r, hsuffix, hrest⟩ := leavesBlanks_readDigits? hw h
      exact ⟨r, hsuffix.trans (List.suffix_cons b s), hrest⟩
    · obtain ⟨rfl, rfl⟩ := Prod.mk.inj (Option.some.inj h)
      exact ⟨b :: s, List.suffix_refl _, rfl, rfl⟩

theorem leavesBlanks_readSigned? : LeavesBlanks readSigned? := by
  intro s w rest e hw h
  have plain := fun (f : List UInt8 → Int) => leavesBlanks_readDigits?.map f
  cases s with
  | nil =>
    rw [List.nil_append] at h
    cases w with
    | nil => contradiction
    | cons b w =>
      have hb := (skipBlank_cons_eq_nil.mp hw).1
      have hminus : b ≠ 0x2D := by
        rintro rfl
        exact absurd hb (by decide)
      have hplus : b ≠ 0x2B := by
        rintro rfl
        exact absurd hb (by decide)
      rw [readSigned?_cons, if_neg hminus, if_neg hplus, readDigits?_blank hw] at h
      contradiction
  | cons b s =>
    rw [List.cons_append, readSigned?_cons] at h
    rw [readSigned?_cons]
    split_ifs at h ⊢
    · obtain ⟨r, hsuffix, hrest⟩ := plain (fun ds => -(natOfDigits 0 ds : Int)) hw h
      exact ⟨r, hsuffix.trans (List.suffix_cons b s), hrest⟩
    · obtain ⟨r, hsuffix, hrest⟩ := plain (fun ds => (natOfDigits 0 ds : Int)) hw h
      exact ⟨r, hsuffix.trans (List.suffix_cons b s), hrest⟩
    · exact plain (fun ds => (natOfDigits 0 ds : Int)) (s := b :: s) hw h

theorem leavesBlanks_readExponent? : LeavesBlanks readExponent? := by
  intro s w rest e hw h
  cases s with
  | nil =>
    have hnone : readExponent? w = some (none, w) := by
      cases w with
      | nil => rfl
      | cons b w =>
        obtain ⟨-, -, hlower, hupper⟩ := delimits_of_blank hw b w rfl
        rw [readExponent?, if_neg (not_or.mpr ⟨hlower, hupper⟩)]
    rw [List.nil_append, hnone] at h
    obtain ⟨rfl, rfl⟩ := Prod.mk.inj (Option.some.inj h)
    exact ⟨[], List.suffix_refl [], rfl, rfl⟩
  | cons b s =>
    rw [List.cons_append, readExponent?] at h
    rw [readExponent?]
    split_ifs at h ⊢
    · obtain ⟨r, hsuffix, hrest⟩ := (leavesBlanks_readSigned?.map some) hw h
      exact ⟨r, hsuffix.trans (List.suffix_cons b s), hrest⟩
    · obtain ⟨rfl, rfl⟩ := Prod.mk.inj (Option.some.inj h)
      exact ⟨b :: s, List.suffix_refl _, rfl, rfl⟩

/-- A number ends in front of blanks. -/
theorem leavesBlanks_readNumber? (negative : Bool) : LeavesBlanks (readNumber? negative) :=
  leavesBlanks_readWhole?.bind fun whole => leavesBlanks_readFraction?.bind fun fraction =>
    leavesBlanks_readExponent?.bind fun exponent =>
      LeavesBlanks.pure (⟨⟨negative, natOfDigits (natOfDigits 0 whole) fraction,
        exponent.getD 0 - fraction.length⟩, fraction.isEmpty && exponent.isNone⟩ : JsonNumber)

/-! ## Values in front of blanks -/

/-- What opens no level is read in front of blanks. -/
theorem readScalar?_of_append {b : UInt8} {s w rest : List UInt8} {v : JsonValue}
    (hw : skipBlank w = []) (h : readScalar? b (s ++ w) = some (v, rest)) :
    ∃ r, r <:+ b :: s ∧ rest = r ++ w ∧ readScalar? b s = some (v, r) := by
  have behind : ∀ {p : List UInt8 → Option (JsonValue × List UInt8)}, LeavesBlanks p →
      p (s ++ w) = some (v, rest) →
      ∃ r, r <:+ b :: s ∧ rest = r ++ w ∧ p s = some (v, r) := by
    intro p hp hread
    obtain ⟨r, hsuffix, hrest⟩ := hp hw hread
    exact ⟨r, hsuffix.trans (List.suffix_cons b s), hrest⟩
  simp only [readScalar?] at h ⊢
  split_ifs at h ⊢
  · exact behind (leavesBlanks_readText.map string) h
  · exact behind (leavesBlanks_readWord? (by decide +kernel) (bool true)) h
  · exact behind (leavesBlanks_readWord? (by decide +kernel) (bool false)) h
  · exact behind (leavesBlanks_readWord? (by decide +kernel) null) h
  · exact behind ((leavesBlanks_readNumber? true).map number) h
  · exact ((leavesBlanks_readNumber? false).map number) (s := b :: s) hw h

/-- What a reader with fuel reads in front of blanks, it reads without them. Fuel for each of the
bytes it takes, and some more, is enough. -/
def Ends (more fuel : Nat) (p : Nat → List UInt8 → Option (JsonValue × List UInt8)) : Prop :=
  ∀ ⦃s w rest : List UInt8⦄ ⦃v : JsonValue⦄, skipBlank w = [] → p fuel (s ++ w) = some (v, rest) →
    ∃ r, r <:+ s ∧ rest = r ++ w ∧
      ∀ ⦃fuel' : Nat⦄, 2 * s.length + more ≤ 2 * r.length + fuel' → p fuel' s = some (v, r)

/-- What is known of a value. -/
def EndsValue (fuel : Nat) : Prop :=
  ∀ ⦃levels : Nat⦄, Ends 1 fuel (read? · levels)

/-- What is known of the items of an array. -/
def EndsItems (fuel : Nat) : Prop :=
  ∀ ⦃levels : Nat⦄ ⦃before : List JsonValue⦄, Ends 0 fuel (readItems? · levels before)

/-- What is known of the members of an object. -/
def EndsMembers (fuel : Nat) : Prop :=
  ∀ ⦃levels : Nat⦄ ⦃before : List (String × JsonValue)⦄, Ends 0 fuel (readMembers? · levels before)

section

variable {fuel levels : Nat} {s w inner rest : List UInt8} {b : UInt8} {v : JsonValue}

theorem suffix_of_skipBlank (h : skipBlank s = b :: inner) : b :: inner <:+ s :=
  h ▸ List.dropWhile_suffix isBlank

theorem EndsItems.succ (hvalue : EndsValue fuel) (hitems : EndsItems fuel) :
    EndsItems (fuel + 1) := by
  intro levels before s w rest v hw h
  beta_reduce at h ⊢
  obtain ⟨first, middle', b, after', hfirst, hmiddle⟩ := exists_of_readItems? h
  obtain ⟨middle, hfront, rfl, hread⟩ := hvalue hw hfirst
  obtain ⟨after, hskip, rfl⟩ := exists_skipBlank_of_append hw hmiddle
  have hbehind := (suffix_of_skipBlank hskip).trans hfront
  have hs := hfront.length_le
  have hafter := (suffix_of_skipBlank hskip).length_le
  rw [List.length_cons] at hafter
  rw [readItems?_step hfirst hmiddle] at h
  split_ifs at h with hcomma hclose
  · obtain ⟨r, hsuffix, hrest, hread'⟩ := hitems hw h
    have hr := hsuffix.length_le
    refine ⟨r, hsuffix.trans ((List.suffix_cons b after).trans hbehind), hrest,
      fun fuel' hfuel => ?_⟩
    obtain ⟨k, rfl⟩ : ∃ k, fuel' = k + 1 := ⟨fuel' - 1, by omega⟩
    rw [readItems?_step (hread (by omega)) hskip, if_pos hcomma]
    exact hread' (by omega)
  · obtain ⟨rfl, rfl⟩ := Prod.mk.inj (Option.some.inj h)
    refine ⟨after, (List.suffix_cons b after).trans hbehind, rfl, fun fuel' hfuel => ?_⟩
    obtain ⟨k, rfl⟩ : ∃ k, fuel' = k + 1 := ⟨fuel' - 1, by omega⟩
    rw [readItems?_step (hread (by omega)) hskip, if_neg hcomma, if_pos hclose]

theorem EndsMembers.succ (hvalue : EndsValue fuel) (hmembers : EndsMembers fuel) :
    EndsMembers (fuel + 1) := by
  intro levels before s w rest v hw h
  beta_reduce at h ⊢
  obtain ⟨quoted', name, named', valued', first, middle', b, after', hquote', hname', hcolon',
    hfirst, hmiddle⟩ := exists_of_readMembers? h
  obtain ⟨quoted, hquoted, rfl, hquote⟩ := readMark?_of_append hw (by decide) hquote'
  obtain ⟨named, hnamed, rfl, hname⟩ := leavesBlanks_readText hw hname'
  obtain ⟨valued, hvalued, rfl, hcolon⟩ := readMark?_of_append hw (by decide) hcolon'
  obtain ⟨middle, hfront, rfl, hread⟩ := hvalue hw hfirst
  obtain ⟨after, hskip, rfl⟩ := exists_skipBlank_of_append hw hmiddle
  have hmember := (hvalued.trans hnamed).trans hquoted
  have hbehind := (suffix_of_skipBlank hskip).trans (hfront.trans hmember)
  have hs := hmember.length_le
  have hmiddle' := hfront.length_le
  have hafter := (suffix_of_skipBlank hskip).length_le
  rw [List.length_cons] at hafter
  have hstep : ∀ {k : Nat}, 2 * s.length + 1 ≤ 2 * middle.length + k →
      readMembers? (k + 1) levels before s =
        if b = 0x2C then readMembers? k levels ((name, first) :: before) after
        else if b = 0x7D then some (object ((name, first) :: before).reverse, after)
        else none :=
    fun hk => readMembers?_step hquote hname hcolon (hread (by omega)) hskip before
  rw [readMembers?_step hquote' hname' hcolon' hfirst hmiddle] at h
  split_ifs at h with hcomma hclose
  · obtain ⟨r, hsuffix, hrest, hread'⟩ := hmembers hw h
    have hr := hsuffix.length_le
    refine ⟨r, hsuffix.trans ((List.suffix_cons b after).trans hbehind), hrest,
      fun fuel' hfuel => ?_⟩
    obtain ⟨k, rfl⟩ : ∃ k, fuel' = k + 1 := ⟨fuel' - 1, by omega⟩
    rw [hstep (by omega), if_pos hcomma]
    exact hread' (by omega)
  · obtain ⟨rfl, rfl⟩ := Prod.mk.inj (Option.some.inj h)
    refine ⟨after, (List.suffix_cons b after).trans hbehind, rfl, fun fuel' hfuel => ?_⟩
    obtain ⟨k, rfl⟩ : ∃ k, fuel' = k + 1 := ⟨fuel' - 1, by omega⟩
    rw [hstep (by omega), if_neg hcomma, if_pos hclose]

/-- Between its marks a value is empty or read by another reader. It is read in front of blanks if
that reader reads in front of them. -/
theorem Ends.enclosed {opened closed : UInt8} {empty : JsonValue}
    {inside : Nat → List UInt8 → Option (JsonValue × List UInt8)} (hinside : Ends 0 fuel inside)
    (hstep : ∀ {k : Nat} {s inner after : List UInt8} {b : UInt8}, skipBlank s = opened :: inner →
      skipBlank inner = b :: after → read? (k + 1) levels s =
        if b = closed then some (empty, after) else inside k (b :: after))
    (hnil : ∀ {s inner : List UInt8}, skipBlank s = opened :: inner → skipBlank inner = [] →
      read? (fuel + 1) levels s = none)
    (hw : skipBlank w = []) (hs : skipBlank s = opened :: inner)
    (h : read? (fuel + 1) levels (s ++ w) = some (v, rest)) :
    ∃ r, r <:+ s ∧ rest = r ++ w ∧ ∀ ⦃fuel' : Nat⦄, 2 * s.length + 1 ≤ 2 * r.length + fuel' →
      read? fuel' levels s = some (v, r) := by
  have hblank := skipBlank_append_of_cons hs w
  cases hinner : skipBlank (inner ++ w) with
  | nil =>
    rw [hnil hblank hinner] at h
    contradiction
  | cons c after' =>
    rw [hstep hblank hinner] at h
    obtain ⟨after, hskip, rfl⟩ := exists_skipBlank_of_append hw hinner
    have hbehind := (List.suffix_cons opened inner).trans (suffix_of_skipBlank hs)
    have hopened := (suffix_of_skipBlank hs).length_le
    have hcontent := (suffix_of_skipBlank hskip).length_le
    rw [List.length_cons] at hopened hcontent
    split_ifs at h with hclose
    · obtain ⟨rfl, rfl⟩ := Prod.mk.inj (Option.some.inj h)
      refine ⟨after, (List.suffix_cons c after).trans ((suffix_of_skipBlank hskip).trans hbehind),
        rfl, fun fuel' hfuel => ?_⟩
      obtain ⟨k, rfl⟩ : ∃ k, fuel' = k + 1 := ⟨fuel' - 1, by omega⟩
      rw [hstep hs hskip, if_pos hclose]
    · obtain ⟨r, hsuffix, hrest, hread⟩ := hinside (s := c :: after) hw h
      have hr := hsuffix.length_le
      rw [List.length_cons] at hr hread
      refine ⟨r, hsuffix.trans ((suffix_of_skipBlank hskip).trans hbehind), hrest,
        fun fuel' hfuel => ?_⟩
      obtain ⟨k, rfl⟩ : ∃ k, fuel' = k + 1 := ⟨fuel' - 1, by omega⟩
      rw [hstep hs hskip, if_neg hclose]
      exact hread (by omega)

theorem EndsValue.succ (hitems : EndsItems fuel) (hmembers : EndsMembers fuel) :
    EndsValue (fuel + 1) := by
  intro levels s w rest v hw h
  beta_reduce at h ⊢
  cases hs : skipBlank s with
  | nil =>
    rw [read?_of_nil ((skipBlank_of_blank w hs).trans hw)] at h
    contradiction
  | cons b inner =>
    have hblank := skipBlank_append_of_cons hs w
    by_cases hbrace : b = 0x7B
    · subst hbrace
      cases levels with
      | zero =>
        rw [read?_brace_zero hblank] at h
        contradiction
      | succ levels =>
        exact (@hmembers levels []).enclosed read?_brace read?_brace_of_nil hw hs h
    · by_cases hbracket : b = 0x5B
      · subst hbracket
        cases levels with
        | zero =>
          rw [read?_bracket_zero hblank] at h
          contradiction
        | succ levels =>
          exact (@hitems levels []).enclosed read?_bracket read?_bracket_of_nil hw hs h
      · rw [read?_scalar hblank hbrace hbracket] at h
        obtain ⟨r, hsuffix, hrest, hread⟩ := readScalar?_of_append hw h
        have hbehind := hsuffix.trans (suffix_of_skipBlank hs)
        have hr := hbehind.length_le
        refine ⟨r, hbehind, hrest, fun fuel' hfuel => ?_⟩
        obtain ⟨k, rfl⟩ : ∃ k, fuel' = k + 1 := ⟨fuel' - 1, by omega⟩
        rw [read?_scalar hs hbrace hbracket, hread]

/-- **A value, items and members in front of blanks** are read just as they are without them. -/
theorem ends (fuel : Nat) : EndsValue fuel ∧ EndsItems fuel ∧ EndsMembers fuel := by
  induction fuel with
  | zero =>
    refine ⟨?_, ?_, ?_⟩
    · intro levels s w rest v _ h
      beta_reduce at h
      rw [read?] at h
      contradiction
    · intro levels before s w rest v _ h
      beta_reduce at h
      rw [readItems?] at h
      contradiction
    · intro levels before s w rest v _ h
      beta_reduce at h
      rw [readMembers?] at h
      contradiction
  | succ fuel ih =>
    obtain ⟨hvalue, hitems, hmembers⟩ := ih
    exact ⟨EndsValue.succ hitems hmembers, EndsItems.succ hvalue hitems,
      EndsMembers.succ hvalue hmembers⟩

/-- A value in front of blanks is there without them. -/
theorem read?_of_append (hw : skipBlank w = []) (h : read? fuel levels (s ++ w) = some (v, rest))
    {fuel' : Nat} (hfuel : 2 * s.length + 1 ≤ fuel') :
    ∃ r, rest = r ++ w ∧ read? fuel' levels s = some (v, r) := by
  obtain ⟨r, -, hrest, hread⟩ := (ends fuel).1 hw h
  exact ⟨r, hrest, hread (by omega)⟩

/-- Fuel for the bytes of a text is enough to read it as a value. -/
theorem parse?_of_read? (h : read? fuel maxDepth s = some (v, rest)) (hrest : skipBlank rest = []) :
    parse? s = some v := by
  rw [← List.append_nil s] at h
  obtain ⟨r, rfl, hread⟩ := read?_of_append (w := []) rfl h (Nat.le_succ (2 * s.length + 1))
  rw [List.append_nil] at hrest
  exact parse?_eq_some_iff.mpr ⟨r, hread, hrest⟩

end

/-! ## Blanks around a text -/

section

variable {s w : List UInt8}

/-- **Blanks behind a text do not count**, whether it is a value or not. -/
theorem parse?_append_blank (hw : skipBlank w = []) : parse? (s ++ w) = parse? s := by
  refine Option.ext fun v => ⟨fun h => ?_, fun h => ?_⟩
  · obtain ⟨rest, hread, hrest⟩ := parse?_eq_some_iff.mp h
    obtain ⟨r, rfl, hread'⟩ := read?_of_append hw hread (Nat.le_succ (2 * s.length + 1))
    refine parse?_of_read? hread' ?_
    rw [skipBlank_append_blank hw] at hrest
    split_ifs at hrest with hr
    · exact hr
    · exact absurd (List.append_eq_nil_iff.mp hrest).1 hr
  · obtain ⟨rest, hread, hrest⟩ := parse?_eq_some_iff.mp h
    refine parse?_of_read?
      (read?_append hread (Nat.le_refl _) (depth_le_of_read? hread) (delimits_of_blank hw)) ?_
    rw [skipBlank_of_blank w hrest, hw]

/-- **Blanks in front of a text do not count** either. -/
theorem parse?_blank_append (hw : skipBlank w = []) : parse? (w ++ s) = parse? s := by
  have hskip : skipBlank (w ++ s) = skipBlank s := skipBlank_of_blank s hw
  refine Option.ext fun v => ⟨fun h => ?_, fun h => ?_⟩
  · obtain ⟨rest, hread, hrest⟩ := parse?_eq_some_iff.mp h
    rw [← read?_skipBlank, hskip, read?_skipBlank] at hread
    exact parse?_of_read? hread hrest
  · obtain ⟨rest, hread, hrest⟩ := parse?_eq_some_iff.mp h
    rw [← read?_skipBlank, ← hskip, read?_skipBlank] at hread
    exact parse?_of_read? hread hrest

end

end JsonValue

end BytecodeHost
