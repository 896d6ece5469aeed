import BytecodeHost.FileSystem
import Mathlib.Data.String.Basic

/-!
# Names in paths

A path is split at its slashes by going through its bytes. The pieces are those of the list of its
characters, since a slash is never a part of another character.

## Main definitions

* `Path.IsName` — a path of one name

## Main results

* `Path.splitOn_ofList` — a text is split at a character as the list of its characters is
* `Path.IsName.clean_eq` — a name is in its shortest form
* `FileSystem.locationOf_of_isName` — it names a place below the root
-/

namespace BytecodeHost

namespace Path

open String

/-! ## Pieces -/

/-- The rest of a text is split when `m`, the start of a piece, has been passed. -/
theorem splitOnAux_ofList (c : Char) {text l m r : List Char} (h : text = l ++ m ++ r)
    (acc : List String) :
    splitOnAux (ofList text) (ofList [c]) ⟨utf8Len l⟩ ⟨utf8Len (l ++ m)⟩ 0 acc
      = acc.reverse ++ (List.splitOnPPrepend (· == c) r m.reverse).map ofList := by
  have hend := atEnd_of_valid (l ++ m) r
  rw [← h] at hend
  induction r generalizing l m acc with
  | nil =>
    rw [splitOnAux, if_pos (hend.mpr rfl), h, utf8Len_append, extract_of_valid,
      List.splitOnPPrepend_nil, List.reverse_reverse, List.reverse_cons]
    rfl
  | cons d r ih =>
    have hget : Pos.Raw.get (ofList text) ⟨utf8Len (l ++ m)⟩ = d := h ▸ get_of_valid _ _
    have hnext : Pos.Raw.next (ofList text) ⟨utf8Len (l ++ m)⟩ = ⟨utf8Len (l ++ m ++ [d])⟩ := by
      rw [h, next_of_valid, utf8Len_append (l ++ m), utf8Len_cons, utf8Len_nil, Nat.zero_add]
    have hsep : Pos.Raw.get (ofList [c]) 0 = c := get_of_valid [] [c]
    rw [splitOnAux, if_neg (mt hend.mp (List.cons_ne_nil d r)), hget, hsep, hnext,
      List.splitOnPPrepend_cons_eq_if]
    by_cases hd : d = c
    · have hone : Pos.Raw.next (ofList [c]) 0 = ⟨utf8Len [c]⟩ := next_of_valid [] c []
      have hover : Pos.Raw.atEnd (ofList [c]) ⟨utf8Len [c]⟩ = true :=
        (atEnd_of_valid [c] []).mpr rfl
      have hpiece : Pos.Raw.extract (ofList text) ⟨utf8Len l⟩
          (Pos.Raw.unoffsetBy ⟨utf8Len (l ++ m ++ [d])⟩ ⟨utf8Len [c]⟩) = ofList m := by
        rw [Pos.Raw.unoffsetBy, utf8Len_append (l ++ m), hd, Nat.add_sub_cancel, utf8Len_append l,
          h, extract_of_valid]
      have htext : text = l ++ m ++ [d] ++ [] ++ r := by simp [h]
      have hrest := ih htext (ofList m :: acc) (htext ▸ atEnd_of_valid _ _)
      rw [if_pos (beq_iff_eq.mpr hd), if_pos (beq_iff_eq.mpr hd), hone, if_pos hover, hpiece]
      simpa using hrest
    · have hpass : Pos.Raw.next (ofList text) (Pos.Raw.unoffsetBy ⟨utf8Len (l ++ m)⟩ 0)
          = ⟨utf8Len (l ++ (m ++ [d]))⟩ := by
        rw [← List.append_assoc]
        exact hnext
      have htext : text = l ++ (m ++ [d]) ++ r := by simp [h]
      have hrest := ih htext acc (htext ▸ atEnd_of_valid _ _)
      rw [if_neg (mt beq_iff_eq.mp hd), if_neg (mt beq_iff_eq.mp hd), hpass, hrest,
        List.reverse_append]
      rfl

/-- A text is split at a character as the list of its characters is. -/
theorem splitOn_ofList (c : Char) (text : List Char) :
    (ofList text).splitOn (ofList [c]) = (text.splitOn c).map ofList := by
  have hne : ¬ (ofList [c] == "") = true := by simp
  rw [splitOn, if_neg hne, List.splitOn_eq_splitOnP, List.splitOnP_eq_splitOnPPrepend]
  exact splitOnAux_ofList c (l := []) (m := []) rfl []

section

variable {path : String} (h : '/' ∉ path.toList)

include h

theorem splitOn_eq_singleton : path.splitOn "/" = [path] := by
  have hsplit := splitOn_ofList '/' path.toList
  rwa [List.splitOn_eq_singleton h, List.map_singleton, ofList_toList] at hsplit

theorem names_eq_filter : names path = [path].filter fun s => s ≠ "" ∧ s ≠ "." := by
  rw [names, splitOn_eq_singleton h]

/-- A path without a slash does not start at the root. -/
theorem isAbsolute_eq_false : isAbsolute path = false := by
  refine Bool.eq_false_iff.mpr fun hstart => h ?_
  exact (startsWith_string_iff.mp hstart).subset (List.mem_singleton_self '/')

end

/-- The root has no names. -/
theorem clean_root : clean "/" = "/" := by
  have hnames : names "/" = [] := by
    have hsplit : "/".splitOn "/" = ["", ""] := splitOn_ofList '/' ['/']
    rw [names, hsplit]
    rfl
  have hrooted : isAbsolute "/" = true := startsWith_string_iff.mpr (List.prefix_refl _)
  rw [clean, hnames, hrooted]
  rfl

/-! ## Single names -/

/-- A path is a single name. -/
structure IsName (path : String) : Prop where
  slash : '/' ∉ path.toList
  ne_empty : path ≠ ""
  ne_dot : path ≠ "."

instance (path : String) : Decidable (IsName path) :=
  decidable_of_iff ('/' ∉ path.toList ∧ path ≠ "" ∧ path ≠ ".")
    ⟨fun ⟨h, h', h''⟩ => ⟨h, h', h''⟩, fun h => ⟨h.slash, h.ne_empty, h.ne_dot⟩⟩

namespace IsName

variable {path : String} (h : IsName path)

include h

theorem names_eq : names path = [path] := by
  rw [names_eq_filter h.slash]
  exact List.filter_eq_self.mpr (by simp [h.ne_empty, h.ne_dot])

/-- A name is in its shortest form. -/
theorem clean_eq : clean path = path := by
  have hkept : ([path].foldl (descend false) []).reverse = [path] := by
    by_cases hup : path = ".." <;> simp [descend, hup]
  rw [clean, h.names_eq, isAbsolute_eq_false h.slash, hkept, intercalate_singleton]
  simp [h.ne_empty]

end IsName

end Path

namespace FileSystem

/-- A name alone names a place below the root. -/
theorem locationOf_of_isName {path : String} (h : Path.IsName path) : locationOf path = [path] := by
  rw [locationOf, h.clean_eq, h.names_eq, List.reverse_singleton]

/-- No path at all is taken as the root. -/
theorem locationOf_empty : locationOf "" = [] := by
  have hclean : Path.clean "" = "." := by
    rw [Path.clean, Path.names_eq_filter (by decide), Path.isAbsolute_eq_false (by decide)]
    rfl
  rw [locationOf, hclean, Path.names_eq_filter (by decide)]
  rfl

end FileSystem

end BytecodeHost
