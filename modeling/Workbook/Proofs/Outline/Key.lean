/-
Paths and keys.

A path is the names on the way, with slashes between them, and these names are what it is taken apart
into (`pathParts_path`).  Its key is made of the names in lower case in the same way (`pathKey_path`).
A text in lower case has the slashes, and all other marks before the digits, that the text has
(`mem_of_isMark`), so the names of a key are those of the path, in lower case (`lower_eq_of_pathKey`).
No character is moved to one that is moved itself, so what is in lower case stays as it is
(`lower_lower`).
-/
import Mathlib
import Workbook.Outline

namespace Workbook

open Outline (isName)

/-! ## Texts between slashes -/

section Split

open String

/-- What comes after `l` is taken apart, of which `m` has been read since the last slash. -/
theorem splitOnAux_slash (l m r : List Char) (acc : List String) :
    (String.ofList (l ++ m ++ r)).splitOnAux "/" ⟨utf8Len l⟩ ⟨utf8Len l + utf8Len m⟩ 0 acc =
      acc.reverse ++ (List.splitOnPPrepend (· == '/') r m.reverse).map String.ofList := by
  induction r generalizing l m acc with
  | nil =>
    have hend := (String.atEnd_of_valid (l ++ m) []).2 rfl
    rw [utf8Len_append] at hend
    rw [String.splitOnAux, if_pos hend]
    simp only [extract_of_valid]
    simp
  | cons c r ih =>
    have hend : ¬ Pos.Raw.atEnd (String.ofList (l ++ m ++ c :: r)) ⟨utf8Len l + utf8Len m⟩ = true := by
      rw [← utf8Len_append, String.atEnd_of_valid]
      exact List.cons_ne_nil c r
    have hget := get_of_valid (l ++ m) (c :: r)
    have hnext := next_of_valid (l ++ m) c r
    rw [utf8Len_append] at hget hnext
    have hslash : Pos.Raw.get "/" 0 = '/' := rfl
    rw [String.splitOnAux, if_neg hend, hget, hslash, List.headD_cons,
      List.splitOnPPrepend_cons_eq_if]
    by_cases hc : (c == '/') = true
    · obtain rfl := eq_of_beq hc
      have hsep : Pos.Raw.atEnd "/" (Pos.Raw.next "/" 0) = true := rfl
      have hback : Pos.Raw.unoffsetBy ⟨utf8Len l + utf8Len m + Char.utf8Size '/'⟩
          (Pos.Raw.next "/" 0) = ⟨utf8Len l + utf8Len m⟩ := rfl
      have hrest := ih (l ++ m ++ ['/']) [] (String.ofList m :: acc)
      rw [if_pos hc, if_pos hc]
      simp only [hsep, if_true, hnext, hback, extract_of_valid]
      simpa [Nat.add_assoc] using hrest
    · have hstay : Pos.Raw.unoffsetBy ⟨utf8Len l + utf8Len m⟩ 0 = ⟨utf8Len l + utf8Len m⟩ := rfl
      have hrest := ih l (m ++ [c]) acc
      rw [if_neg hc, if_neg hc, hstay, hnext]
      simpa [Nat.add_assoc] using hrest

theorem splitOn_slash (s : String) :
    s.splitOn "/" = (s.toList.splitOn '/').map String.ofList := by
  have h := splitOnAux_slash [] [] s.toList []
  simpa [String.splitOn, List.splitOn] using h

theorem not_mem_of_mem_splitOn {c : Char} {cs part : List Char} (h : part ∈ cs.splitOn c) :
    c ∉ part := by
  induction cs generalizing part with
  | nil =>
    have hnil : part = [] := by simpa [List.splitOn] using h
    rw [hnil]
    exact List.not_mem_nil
  | cons d cs ih =>
    rw [List.splitOn_cons_eq_if_modifyHead] at h
    split at h
    · obtain rfl | h := List.mem_cons.1 h
      · exact List.not_mem_nil
      · exact ih h
    · rename_i hd
      obtain ⟨first, rest, hcs⟩ := List.exists_cons_of_ne_nil (List.splitOn_ne_nil c cs)
      rw [hcs] at h ih
      obtain rfl | h := List.mem_cons.1 h
      · have hne : c ≠ d := fun e => hd (beq_iff_eq.2 e.symm)
        exact List.not_mem_cons_of_ne_of_not_mem hne (ih List.mem_cons_self)
      · exact ih (List.mem_cons_of_mem _ h)

end Split

/-! ## Names -/

theorem isName_iff {n : String} : isName n = true ↔ n ≠ "" ∧ '/' ∉ n.toList := by
  simp [isName]

theorem isName_of_mem_pathParts {path n : String} (h : n ∈ pathParts path) : isName n = true := by
  rw [pathParts, List.mem_filter, splitOn_slash] at h
  obtain ⟨h, hne⟩ := h
  obtain ⟨part, hpart, rfl⟩ := List.mem_map.1 h
  refine isName_iff.2 ⟨of_decide_eq_true hne, ?_⟩
  rw [String.toList_ofList]
  exact not_mem_of_mem_splitOn hpart

/-! ## Paths of names -/

section Paths

variable {ns ms : List String} {n m : String}

/-- A path is taken apart into the names that it is made of. -/
theorem pathParts_path (h : ∀ n ∈ ns, isName n = true) : pathParts (Tree.path ns) = ns := by
  have hslash : "/".toList = ['/'] := rfl
  rw [pathParts, Tree.path, splitOn_slash, String.toList_intercalate, hslash]
  cases ns with
  | nil => rfl
  | cons n ns =>
    have hparts (l : List Char) (hl : l ∈ (n :: ns).map String.toList) : '/' ∉ l := by
      obtain ⟨m, hm, rfl⟩ := List.mem_map.1 hl
      exact (isName_iff.1 (h m hm)).2
    rw [List.splitOn_intercalate '/' hparts (by simp), List.map_map, List.filter_eq_self.2]
    · simp
    · intro m hm
      have hm : m ∈ n :: ns := by simpa using hm
      exact decide_eq_true (isName_iff.1 (h m hm)).1

theorem path_inj (hn : ∀ n ∈ ns, isName n = true) (hm : ∀ m ∈ ms, isName m = true)
    (h : Tree.path ns = Tree.path ms) : ns = ms := by
  rw [← pathParts_path hn, h, pathParts_path hm]

theorem path_eq_empty (h : ∀ n ∈ ns, isName n = true) : Tree.path ns = "" ↔ ns = [] := by
  constructor
  · intro he
    have hnil : Tree.path ns = Tree.path [] := he
    exact path_inj h (fun _ hm => absurd hm List.not_mem_nil) hnil
  · rintro rfl
    rfl

/-- A path with one more name. -/
theorem joinPath_path (h : ∀ n ∈ ns, isName n = true) (n : String) :
    joinPath (Tree.path ns) n = Tree.path (ns ++ [n]) := by
  unfold joinPath
  by_cases hns : ns = []
  · subst hns
    rfl
  · rw [if_neg (mt (path_eq_empty h).1 hns)]
    have happend := String.intercalate_append_of_ne_nil (s := "/") hns (List.cons_ne_nil n [])
    rw [String.intercalate_singleton] at happend
    exact happend.symm

end Paths

/-! ## Lower case -/

namespace Text
namespace Case

/-- A set of numbers as the bits of one. -/
def bits (ns : List Nat) : Nat :=
  ns.foldr (fun n b => 1 <<< n ||| b) 0

theorem testBit_bits (ns : List Nat) (n : Nat) : (bits ns).testBit n = decide (n ∈ ns) := by
  induction ns with
  | nil => exact Nat.zero_testBit n
  | cons m ns ih =>
    have hcons : bits (m :: ns) = 1 <<< m ||| bits ns := rfl
    rw [hcons, Nat.testBit_or, ih, Nat.one_shiftLeft, Nat.testBit_two_pow]
    simp [eq_comm]

theorem bits_append (ns ms : List Nat) : bits (ns ++ ms) = bits ns ||| bits ms := by
  refine Nat.eq_of_testBit_eq fun n => ?_
  rw [Nat.testBit_or, testBit_bits, testBit_bits, testBit_bits]
  simp

theorem bits_map_add (m : Nat) (ns : List Nat) : bits (ns.map (m + ·)) = bits ns <<< m := by
  induction ns with
  | nil => exact (Nat.zero_shiftLeft m).symm
  | cons n ns ih =>
    show 1 <<< (m + n) ||| bits (ns.map (m + ·)) = (1 <<< n ||| bits ns) <<< m
    rw [ih, Nat.shiftLeft_or_distrib, ← Nat.shiftLeft_add, Nat.add_comm m n]

theorem bits_flatMap {α : Type} {rs : List α} {listOf : α → List Nat} {bitsOf : α → Nat}
    (h : ∀ r ∈ rs, bits (listOf r) = bitsOf r) :
    bits (rs.flatMap listOf) = rs.foldr (fun r b => bitsOf r ||| b) 0 := by
  induction rs with
  | nil => rfl
  | cons r rs ih =>
    obtain ⟨hr, hrs⟩ := List.forall_mem_cons.1 h
    rw [List.flatMap_cons, bits_append, hr, ih hrs]
    rfl

namespace Run

/-- The code points that a run moves. -/
def sources (r : Run) : List Nat :=
  (List.range ((r.last - r.first) / r.step + 1)).map fun k => r.first + r.step * k

/-- Where a run moves a code point. -/
def image (r : Run) (n : Nat) : Nat :=
  (n + r.shift).toNat

theorem mem_sources {r : Run} {n : Nat} (h : r.moves n = true) : n ∈ r.sources := by
  simp only [moves, Bool.and_eq_true, decide_eq_true_eq, beq_iff_eq] at h
  obtain ⟨⟨hfirst, hlast⟩, hstep⟩ := h
  refine List.mem_map.2 ⟨(n - r.first) / r.step, List.mem_range.2 ?_, ?_⟩
  · exact Nat.lt_succ_of_le (Nat.div_le_div_right (Nat.sub_le_sub_right hlast _))
  · rw [Nat.mul_div_cancel' (Nat.dvd_of_mod_eq_zero hstep)]
    omega

/-- How far what a run moves is behind its first code point. -/
def offsets (r : Run) : List Nat :=
  (List.range ((r.last - r.first) / r.step + 1)).map (r.step * ·)

theorem sources_eq (r : Run) : r.sources = r.offsets.map (r.first + ·) := by
  rw [sources, offsets, List.map_map]
  rfl

theorem map_image_sources {r : Run} (h : 0 ≤ r.first + r.shift) :
    r.sources.map r.image = r.offsets.map (r.image r.first + ·) := by
  rw [sources_eq, List.map_map]
  refine List.map_congr_left fun n _ => ?_
  show ((r.first + n : Nat) + r.shift).toNat = (r.first + r.shift).toNat + n
  omega

/-- What is moved is moved by a run. -/
theorem exists_of_image? {runs : Array Run} {n m : Nat} (h : image? runs n = some m) :
    ∃ r ∈ runs, r.moves n = true ∧ m = r.image n := by
  unfold image? at h
  split at h
  · rename_i r hr
    split at h
    · rename_i hmoves
      exact ⟨r, Array.mem_of_getElem? hr, hmoves, (Option.some.inj h).symm⟩
    · cases h
  · cases h

end Run

/-- All code points that are moved, and all that they are moved to. -/
def lowerSources : List Nat :=
  lowerRuns.toList.flatMap Run.sources

def lowerImages : List Nat :=
  lowerRuns.toList.flatMap fun r => r.sources.map r.image

/-- A code point is one of a character that is no mark before the digits, no capital letter of the
alphabet and neither of the two capital letters that runs do not account for. -/
def IsPlain (m : Nat) : Prop :=
  m.isValidChar ∧ 47 < m ∧ ¬ (65 ≤ m ∧ m ≤ 90) ∧ m ≠ 0x130 ∧ m ≠ 0x3a3

instance (m : Nat) : Decidable (IsPlain m) :=
  inferInstanceAs (Decidable (_ ∧ _))

/-- A run with no code point between the first and the last that it moves to that is not plain. -/
def Run.MovesPlainly (r : Run) : Prop :=
  r.first ≤ r.last ∧ 0 ≤ r.first + r.shift ∧ 47 < r.image r.first ∧
    (r.image r.last < 0xd800 ∨ 0xdfff < r.image r.first ∧ r.image r.last < 0x110000) ∧
    (r.image r.last < 65 ∨ 90 < r.image r.first) ∧
    (r.image r.last < 0x130 ∨ 0x130 < r.image r.first) ∧
    (r.image r.last < 0x3a3 ∨ 0x3a3 < r.image r.first)

instance (r : Run) : Decidable r.MovesPlainly :=
  inferInstanceAs (Decidable (_ ∧ _))

set_option maxRecDepth 2000 in
/-- All that the table has to be searched for. -/
theorem lowerRuns_table : (∀ r ∈ lowerRuns.toList, r.MovesPlainly) ∧
    lowerRuns.toList.foldr (fun r b => bits r.offsets <<< r.image r.first ||| b) 0 &&&
      lowerRuns.toList.foldr (fun r b => bits r.offsets <<< r.first ||| b) 0 = 0 := by
  with_unfolding_all decide

theorem Run.MovesPlainly.isPlain {r : Run} {n : Nat} (h : r.MovesPlainly) (hn : n ∈ r.sources) :
    IsPlain (r.image n) := by
  obtain ⟨k, hk, rfl⟩ := List.mem_map.1 hn
  have hle : r.step * k ≤ r.last - r.first :=
    (Nat.mul_le_mul_left _ (Nat.le_of_lt_succ (List.mem_range.1 hk))).trans (Nat.mul_div_le _ _)
  unfold MovesPlainly image at h
  unfold IsPlain Nat.isValidChar image
  omega

theorem isPlain_of_mem_lowerImages {m : Nat} (h : m ∈ lowerImages) : IsPlain m := by
  obtain ⟨r, hr, hm⟩ := List.mem_flatMap.1 h
  obtain ⟨n, hn, rfl⟩ := List.mem_map.1 hm
  exact (lowerRuns_table.1 r hr).isPlain hn

theorem disjoint_lowerImages : bits lowerImages &&& bits lowerSources = 0 := by
  have hsources : bits lowerSources = _ := bits_flatMap fun r _ => by
    rw [Run.sources_eq, bits_map_add]
  have himages : bits lowerImages = _ := bits_flatMap fun r hr => by
    rw [Run.map_image_sources (lowerRuns_table.1 r hr).2.1, bits_map_add]
  rw [hsources, himages]
  exact lowerRuns_table.2

theorem mem_lowerImages {n m : Nat} (h : Run.image? lowerRuns n = some m) : m ∈ lowerImages := by
  obtain ⟨r, hr, hmoves, rfl⟩ := Run.exists_of_image? h
  exact List.mem_flatMap.2 ⟨r, hr.val, List.mem_map.2 ⟨n, Run.mem_sources hmoves, rfl⟩⟩

/-- What is moved to is not moved. -/
theorem image?_of_mem_lowerImages {m : Nat} (h : m ∈ lowerImages) :
    Run.image? lowerRuns m = none := by
  cases himage : Run.image? lowerRuns m with
  | none => rfl
  | some k =>
    obtain ⟨r, hr, hmoves, -⟩ := Run.exists_of_image? himage
    have hsource : m ∈ lowerSources := List.mem_flatMap.2 ⟨r, hr.val, Run.mem_sources hmoves⟩
    have hbit := congrArg (Nat.testBit · m) disjoint_lowerImages
    simp [testBit_bits, h, hsource] at hbit

/-- A mark before the digits, such as the dot and the slash. -/
def IsMark (c : Char) : Prop :=
  0 < c.toNat ∧ c.toNat < 48

instance (c : Char) : Decidable (IsMark c) :=
  inferInstanceAs (Decidable (_ ∧ _))

/-- A character that is its own lower case form wherever it stands. -/
def IsLowered (c : Char) : Prop :=
  lowerChar c = [c] ∧ c ≠ capitalSigma

theorem toLower_ascii {c : Char} (h : c.toNat < 128) :
    c.toLower.toNat < 128 ∧ (IsMark c.toLower → c.toLower = c) := by
  have hall : ∀ n < 128, (Char.ofNat n).toLower.toNat < 128 ∧
      (IsMark (Char.ofNat n).toLower → (Char.ofNat n).toLower = Char.ofNat n) := by decide
  have hc := hall c.toNat h
  rwa [Char.ofNat_toNat] at hc

theorem toNat_ofNat_of_isPlain {m : Nat} (h : IsPlain m) : (Char.ofNat m).toNat = m := by
  rw [Char.ofNat, dif_pos h.1]
  rfl

/-- The lower case of a character: one of the first 128 characters again, the two characters for an I with
a dot above, what a run moves it to, or the character itself. -/
theorem lowerChar_cases (c : Char) :
    (c.toNat < 128 ∧ lowerChar c = [c.toLower]) ∨ lowerChar c = ['i', '\u0307'] ∨
    (∃ m ∈ lowerImages, lowerChar c = [Char.ofNat m]) ∨ lowerChar c = [c] := by
  unfold lowerChar mapChar
  split
  · rename_i hascii
    exact .inl ⟨hascii, rfl⟩
  · split
    · rename_i image hfind
      have hmem := Array.mem_of_find?_eq_some hfind
      simp only [lowerExpansions, List.mem_toArray, List.mem_singleton] at hmem
      cases hmem
      exact .inr (.inl rfl)
    · cases himage : Run.image? lowerRuns c.toNat with
      | none => exact .inr (.inr (.inr rfl))
      | some m => exact .inr (.inr (.inl ⟨m, mem_lowerImages himage, rfl⟩))

theorem lowerChar_ne_nil (c : Char) : lowerChar c ≠ [] := by
  obtain ⟨-, h⟩ | h | ⟨m, -, h⟩ | h := lowerChar_cases c
  all_goals
    rw [h]
    exact List.cons_ne_nil _ _

/-- What is no capital letter of the alphabet stays as it is. -/
theorem toLower_of_toNat {c : Char} (h : ¬ (65 ≤ c.toNat ∧ c.toNat ≤ 90)) : c.toLower = c := by
  refine Char.toLower_eq_of_not_isUpper fun hupper => h ?_
  simp only [Char.isUpper, decide_eq_true_eq, UInt32.le_iff_toNat_le] at hupper
  exact hupper

theorem isLowered_ascii {c : Char} (h : c.toNat < 128) (hlower : c.toLower = c) : IsLowered c := by
  refine ⟨?_, ?_⟩
  · rw [lowerChar, if_pos h, hlower]
  · rintro rfl
    exact absurd h (by decide)

theorem isLowered_of_isMark {c : Char} (h : IsMark c) : IsLowered c := by
  have hlow := h.2
  exact isLowered_ascii (by omega) (toLower_of_toNat (by omega))

theorem isLowered_ofNat {m : Nat} (h : m ∈ lowerImages) : IsLowered (Char.ofNat m) := by
  have hplain := isPlain_of_mem_lowerImages h
  have htoNat := toNat_ofNat_of_isPlain hplain
  obtain ⟨-, -, hcapital, hdotted, hsigma⟩ := hplain
  refine ⟨?_, ?_⟩
  · unfold lowerChar mapChar
    rw [htoNat]
    split
    · rw [toLower_of_toNat (by rwa [htoNat])]
    · simp [lowerExpansions, image?_of_mem_lowerImages h, Ne.symm hdotted]
  · intro he
    exact hsigma (htoNat.symm.trans (congrArg Char.toNat he))

set_option maxRecDepth 2000 in
/-- The lower case forms that no run accounts for. -/
theorem isLowered_exceptions :
    (IsLowered 'i' ∧ IsLowered '\u0307') ∧ IsLowered smallSigma ∧ IsLowered finalSigma := by
  unfold IsLowered
  with_unfolding_all decide

theorem isLowered_of_mem_lowerChar {c d : Char} (hc : c ≠ capitalSigma) (h : d ∈ lowerChar c) :
    IsLowered d := by
  obtain ⟨hascii, hlower⟩ | hlower | ⟨m, hm, hlower⟩ | hlower := lowerChar_cases c
  all_goals rw [hlower] at h
  · obtain rfl := List.mem_singleton.1 h
    exact isLowered_ascii (toLower_ascii hascii).1 c.toLower_toLower_eq_toLower
  · obtain rfl | h := List.mem_cons.1 h
    · exact isLowered_exceptions.1.1
    · obtain rfl := List.mem_singleton.1 h
      exact isLowered_exceptions.1.2
  · obtain rfl := List.mem_singleton.1 h
    exact isLowered_ofNat hm
  · obtain rfl := List.mem_singleton.1 h
    exact ⟨hlower, hc⟩

/-- No other character becomes a mark before the digits. -/
theorem eq_of_isMark {c d : Char} (hd : IsMark d) (h : d ∈ lowerChar c) : d = c := by
  obtain ⟨hascii, hlower⟩ | hlower | ⟨m, hm, hlower⟩ | hlower := lowerChar_cases c
  all_goals rw [hlower] at h
  · obtain rfl := List.mem_singleton.1 h
    exact (toLower_ascii hascii).2 hd
  · have hpair : ¬ IsMark 'i' ∧ ¬ IsMark '\u0307' := by decide
    obtain rfl | h := List.mem_cons.1 h
    · exact absurd hd hpair.1
    · obtain rfl := List.mem_singleton.1 h
      exact absurd hd hpair.2
  · obtain rfl := List.mem_singleton.1 h
    have hplain := isPlain_of_mem_lowerImages hm
    have hlow := hd.2
    rw [toNat_ofNat_of_isPlain hplain] at hlow
    exact absurd hlow (Nat.not_lt.2 hplain.2.1)
  · exact List.mem_singleton.1 h

theorem not_isMark_lowerSigma (before after : List Char) : ¬ IsMark (lowerSigma before after) := by
  unfold lowerSigma
  split <;> decide

/-- What the first character of a text becomes, before what the others become. -/
theorem lowerList_cons (before : List Char) (c : Char) (after : List Char) :
    lowerList before (c :: after) =
      (if c = capitalSigma then [lowerSigma before after] else lowerChar c) ++
        lowerList (c :: before) after := by
  have hcons : lowerList before (c :: after) =
      if c == capitalSigma then lowerSigma before after :: lowerList (c :: before) after
      else lowerChar c ++ lowerList (c :: before) after := rfl
  by_cases hc : c = capitalSigma
  · rw [hcons, if_pos hc, if_pos (beq_iff_eq.2 hc)]
    rfl
  · rw [hcons, if_neg hc, if_neg (mt beq_iff_eq.1 hc)]

/-- Where a character in lower case comes from. -/
theorem mem_lowerList_cons {before after : List Char} {c d : Char}
    (h : d ∈ lowerList before (c :: after)) :
    d = lowerSigma before after ∨ (c ≠ capitalSigma ∧ d ∈ lowerChar c) ∨
      d ∈ lowerList (c :: before) after := by
  rw [lowerList_cons] at h
  obtain h | h := List.mem_append.1 h
  · split at h
    · exact .inl (List.mem_singleton.1 h)
    · rename_i hc
      exact .inr (.inl ⟨hc, h⟩)
  · exact .inr (.inr h)

/-- The marks in a text stay where they are, and none are added. -/
theorem mem_of_isMark {before after : List Char} {d : Char} (hd : IsMark d)
    (h : d ∈ lowerList before after) : d ∈ after := by
  induction after generalizing before with
  | nil => exact h
  | cons c after ih =>
    obtain rfl | ⟨-, h⟩ | h := mem_lowerList_cons h
    · exact absurd hd (not_isMark_lowerSigma _ _)
    · rw [eq_of_isMark hd h]
      exact List.mem_cons_self
    · exact List.mem_cons_of_mem c (ih h)

/-- A text whose lower case has marks alone is that. -/
theorem lowerList_of_isMark {before after : List Char} (h : ∀ d ∈ lowerList before after, IsMark d) :
    lowerList before after = after := by
  induction after generalizing before with
  | nil => rfl
  | cons c after ih =>
    rw [lowerList_cons] at h ⊢
    rw [ih fun d hd => h d (List.mem_append_right _ hd)]
    by_cases hsigma : c = capitalSigma
    · rw [if_pos hsigma] at h
      exact absurd (h _ List.mem_cons_self) (not_isMark_lowerSigma _ _)
    · rw [if_neg hsigma] at h ⊢
      obtain ⟨d, hd⟩ := List.exists_mem_of_ne_nil _ (lowerChar_ne_nil c)
      have hmark := h d (List.mem_append_left _ hd)
      obtain rfl := eq_of_isMark hmark hd
      rw [(isLowered_of_isMark hmark).1]
      rfl

theorem isLowered_lowerSigma (before after : List Char) : IsLowered (lowerSigma before after) := by
  unfold lowerSigma
  split
  · exact isLowered_exceptions.2.2
  · exact isLowered_exceptions.2.1

theorem isLowered_of_mem_lowerList {before after : List Char} {d : Char}
    (h : d ∈ lowerList before after) : IsLowered d := by
  induction after generalizing before with
  | nil => cases h
  | cons c after ih =>
    obtain rfl | ⟨hc, h⟩ | h := mem_lowerList_cons h
    · exact isLowered_lowerSigma _ _
    · exact isLowered_of_mem_lowerChar hc h
    · exact ih h

theorem lowerList_of_isLowered {before after : List Char} (h : ∀ d ∈ after, IsLowered d) :
    lowerList before after = after := by
  induction after generalizing before with
  | nil => rfl
  | cons c after ih =>
    obtain ⟨hchar, hsigma⟩ := h c List.mem_cons_self
    rw [lowerList_cons, if_neg hsigma, hchar, ih fun d hd => h d (List.mem_cons_of_mem c hd)]
    rfl

theorem lowerList_ne_nil {before after : List Char} (h : after ≠ []) : lowerList before after ≠ [] := by
  cases after with
  | nil => exact absurd rfl h
  | cons c after =>
    rw [lowerList_cons]
    refine List.append_ne_nil_of_left_ne_nil ?_ _
    split
    · exact List.cons_ne_nil _ _
    · exact lowerChar_ne_nil c

end Case

theorem lower_ne_empty {s : String} (h : s ≠ "") : lower s ≠ "" := by
  have hlist : s.toList ≠ [] := fun he => h (String.toList_eq_nil_iff.1 he)
  intro he
  have hnil := congrArg String.toList he
  rw [lower, String.toList_ofList] at hnil
  exact Case.lowerList_ne_nil hlist hnil

/-- Lower case stays as it is. -/
theorem lower_lower (s : String) : lower (lower s) = lower s := by
  unfold lower
  rw [String.toList_ofList,
    Case.lowerList_of_isLowered fun _ hd => Case.isLowered_of_mem_lowerList hd]

/-- A text whose lower case has marks alone is that. -/
theorem lower_of_isMark {s : String} (h : ∀ c ∈ (lower s).toList, Case.IsMark c) : lower s = s := by
  unfold lower at h ⊢
  rw [String.toList_ofList] at h
  rw [Case.lowerList_of_isMark h, String.ofList_toList]

end Text

/-- A name in lower case is a name. -/
theorem isName_lower {n : String} (h : isName n = true) : isName (Text.lower n) = true := by
  obtain ⟨hne, hslash⟩ := isName_iff.1 h
  refine isName_iff.2 ⟨Text.lower_ne_empty hne, ?_⟩
  rw [Text.lower, String.toList_ofList]
  exact fun hm => hslash (Text.Case.mem_of_isMark (by decide) hm)

/-! ## Keys -/

section Keys

variable {ns ms : List String} {n m : String}

theorem isName_map_lower (h : ∀ n ∈ ns, isName n = true) :
    ∀ k ∈ ns.map Text.lower, isName k = true := by
  intro k hk
  obtain ⟨n, hn, rfl⟩ := List.mem_map.1 hk
  exact isName_lower (h n hn)

/-- The key of a path is the path of its names in lower case. -/
theorem pathKey_path (h : ∀ n ∈ ns, isName n = true) :
    pathKey (Tree.path ns) = Tree.path (ns.map Text.lower) := by
  rw [pathKey, pathParts_path h]
  rfl

/-- The key of a path of names in lower case is the path. -/
theorem pathKey_of_lower (h : ∀ n ∈ ns, isName n = true) (hlower : ∀ n ∈ ns, Text.lower n = n) :
    pathKey (Tree.path ns) = Tree.path ns := by
  rw [pathKey_path h, List.map_congr_left hlower, List.map_id']

/-- A name in lower case is its own key. -/
theorem pathKey_of_name (h : isName n = true) (hlower : Text.lower n = n) : pathKey n = n :=
  pathKey_of_lower (List.forall_mem_singleton.2 h) (List.forall_mem_singleton.2 hlower)

theorem lower_of_mem_pathKey {path : String} (h : n ∈ pathParts (pathKey path)) :
    Text.lower n = n := by
  have hnames : ∀ m ∈ pathParts path, isName m = true := fun _ hm => isName_of_mem_pathParts hm
  have hkey : pathKey path = Tree.path ((pathParts path).map Text.lower) := rfl
  rw [hkey, pathParts_path (isName_map_lower hnames)] at h
  obtain ⟨m, -, rfl⟩ := List.mem_map.1 h
  exact Text.lower_lower m

/-- The key of a name in a folder is the key of the path with the name at its end. -/
theorem childKey_pathKey (h : ∀ n ∈ ns, isName n = true) (hn : isName n = true) :
    childKey (pathKey (Tree.path ns)) n = pathKey (Tree.path (ns ++ [n])) := by
  have hall : ∀ m ∈ ns ++ [n], isName m = true := by
    intro m hm
    obtain hm | hm := List.mem_append.1 hm
    · exact h m hm
    · rw [List.mem_singleton.1 hm]
      exact hn
  rw [childKey, pathKey_path h, pathKey_path hall, joinPath_path (isName_map_lower h), List.map_append]
  rfl

theorem joinPath_injective (parent : String) : Function.Injective (joinPath parent) := by
  intro n m h
  unfold joinPath at h
  split at h
  · exact h
  · exact String.append_right_inj _ |>.1 h

theorem childKey_inj {parent : String} (h : childKey parent n = childKey parent m) :
    Text.lower n = Text.lower m :=
  joinPath_injective parent h

/-- Paths with one key differ in case at most. -/
theorem lower_eq_of_pathKey (hn : ∀ n ∈ ns, isName n = true) (hm : ∀ m ∈ ms, isName m = true)
    (h : pathKey (Tree.path ns) = pathKey (Tree.path ms)) : ns.map Text.lower = ms.map Text.lower := by
  rw [pathKey_path hn, pathKey_path hm] at h
  exact path_inj (isName_map_lower hn) (isName_map_lower hm) h

end Keys

end Workbook
