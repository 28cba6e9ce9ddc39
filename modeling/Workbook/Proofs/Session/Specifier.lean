/-
Relative specifiers.

A specifier is followed part by part with a stack of names: an empty part and a dot stay, two dots
take the last name off, and every other part is put on, in lower case (`step`, `walk`).  This fails
exactly if some of the parts, from the first on, lead above the root (`walk_eq_none_iff`), and what
is left of the names that it began with comes first in what it gives (`walk_names`).

The last part loses the ending of a source file, after it has been told from dots.  A part that is
dots and an ending, such as "...fx", is therefore put on as the dots
(`follow_of_mem_bareEndings`).  There are six such parts; for all others the ending can be taken off
first (`follow_eq_walk`).
-/
import Workbook.Proofs.Outline.Key
import Workbook.Session.Import

namespace Workbook
namespace Import

open Outline (isName)

/-! ## One part after another -/

/-- A part that names something. -/
def IsSegment (p : String) : Prop :=
  p ≠ "" ∧ p ≠ "." ∧ p ≠ ".."

instance (p : String) : Decidable (IsSegment p) :=
  inferInstanceAs (Decidable (_ ∧ _))

/-- What following one part makes of the names on the way. -/
def step (ns : List String) (p : String) : Option (List String) :=
  if p = "" ∨ p = "." then some ns
  else if p = ".." then
    if ns.isEmpty then none else some ns.dropLast
  else some (ns ++ [Text.lower p])

def walk (ns ps : List String) : Option (List String) :=
  ps.foldlM step ns

section Step

variable {ns ms : List String} {p : String}

theorem part_cases (p : String) : (p = "" ∨ p = ".") ∨ p = ".." ∨ IsSegment p := by
  unfold IsSegment
  tauto

theorem step_stay (h : p = "" ∨ p = ".") : step ns p = some ns :=
  if_pos h

@[simp]
theorem step_up_nil : step [] ".." = none := by
  decide

theorem step_up (h : ns ≠ []) : step ns ".." = some ns.dropLast := by
  simp [step, h]

theorem step_segment (h : IsSegment p) : step ns p = some (ns ++ [Text.lower p]) := by
  obtain ⟨hempty, hdot, hdots⟩ := h
  simp [step, hempty, hdot, hdots]

@[simp]
theorem walk_nil : walk ns [] = some ns :=
  rfl

@[simp]
theorem walk_cons (ps : List String) : walk ns (p :: ps) = (step ns p).bind (walk · ps) :=
  List.foldlM_cons

theorem walk_append (ps qs : List String) : walk ns (ps ++ qs) = (walk ns ps).bind (walk · qs) :=
  List.foldlM_append

theorem walk_singleton : walk ns [p] = step ns p := by
  rw [walk_cons]
  exact Option.bind_fun_some _

end Step

/-! ## Climbing above the root -/

/-- Some of the parts, from the first on, lead above the root: more of them lead up than there are
names at first and names that they put on. -/
def Climbs (depth : Nat) (ps : List String) : Prop :=
  ∃ taken, taken <+: ps ∧ depth + taken.countP (IsSegment ·) < taken.count ".."

section Climbs

variable {depth : Nat} {p : String} {ps : List String}

theorem not_climbs_nil : ¬ Climbs depth [] := by
  rintro ⟨taken, htaken, hlt⟩
  rw [List.prefix_nil.1 htaken] at hlt
  simp at hlt

theorem climbs_cons : Climbs depth (p :: ps) ↔
    ∃ taken, taken <+: ps ∧ depth + (p :: taken).countP (IsSegment ·) < (p :: taken).count ".." := by
  constructor
  · rintro ⟨taken, htaken, hlt⟩
    obtain rfl | ⟨rest, rfl, hrest⟩ := List.prefix_cons_iff.1 htaken
    · simp at hlt
    · exact ⟨rest, hrest, hlt⟩
  · rintro ⟨taken, htaken, hlt⟩
    exact ⟨p :: taken, List.prefix_cons_inj p |>.2 htaken, hlt⟩

theorem climbs_stay (h : p = "" ∨ p = ".") : Climbs depth (p :: ps) ↔ Climbs depth ps := by
  have hpart : ¬ IsSegment p ∧ p ≠ ".." := by
    obtain rfl | rfl := h <;> decide
  rw [climbs_cons]
  refine exists_congr fun taken => and_congr_right fun _ => ?_
  simp [hpart]

theorem climbs_up_zero : Climbs 0 (".." :: ps) := by
  refine climbs_cons.2 ⟨[], List.nil_prefix, ?_⟩
  decide

theorem climbs_up : Climbs (depth + 1) (".." :: ps) ↔ Climbs depth ps := by
  have hpart : ¬ IsSegment ".." := by decide
  rw [climbs_cons]
  refine exists_congr fun taken => and_congr_right fun _ => ?_
  simp only [hpart, decide_false, Bool.false_eq_true, not_false_iff, List.countP_cons_of_neg,
    List.count_cons_self]
  omega

theorem climbs_segment (h : IsSegment p) : Climbs depth (p :: ps) ↔ Climbs (depth + 1) ps := by
  rw [climbs_cons]
  refine exists_congr fun taken => and_congr_right fun _ => ?_
  simp only [h, decide_true, List.countP_cons_of_pos, List.count_cons_of_ne h.2.2]
  omega

/-- Following parts fails exactly if they lead above the root. -/
theorem walk_eq_none_iff {ns : List String} : walk ns ps = none ↔ Climbs ns.length ps := by
  induction ps generalizing ns with
  | nil => simp [not_climbs_nil]
  | cons p ps ih =>
    obtain hstay | rfl | hsegment := part_cases p
    · rw [walk_cons, step_stay hstay, climbs_stay hstay]
      exact ih
    · by_cases hns : ns = []
      · subst hns
        simp [climbs_up_zero]
      · obtain ⟨depth, hdepth⟩ := Nat.exists_eq_succ_of_ne_zero (mt List.length_eq_zero_iff.1 hns)
        rw [walk_cons, step_up hns, hdepth, climbs_up, Option.bind_some, ih, List.length_dropLast,
          hdepth]
        rfl
    · rw [walk_cons, step_segment hsegment, climbs_segment hsegment, Option.bind_some, ih,
        List.length_append]
      rfl

end Climbs

/-! ## What is left of the names, and what is put on -/

section Names

variable {ns ms ps : List String} {p : String}

/-- First come some of the names that there were at first, and after them parts in lower case. -/
theorem walk_names (h : walk ns ps = some ms) : ∃ kept new, kept <+: ns ∧ ms = kept ++ new ∧
    new.Sublist ((ps.filter (IsSegment ·)).map Text.lower) := by
  induction ps using List.reverseRecOn generalizing ms with
  | nil =>
    obtain rfl := Option.some.inj h
    exact ⟨ns, [], List.prefix_refl ns, (List.append_nil ns).symm, List.nil_sublist _⟩
  | append_singleton ps p ih =>
    rw [walk_append] at h
    obtain ⟨before, hbefore, hp⟩ := Option.bind_eq_some_iff.1 h
    rw [walk_singleton] at hp
    obtain ⟨kept, new, hkept, rfl, hnew⟩ := ih hbefore
    rw [List.filter_append, List.map_append]
    obtain hstay | rfl | hsegment := part_cases p
    · rw [step_stay hstay] at hp
      obtain rfl := Option.some.inj hp
      exact ⟨kept, new, hkept, rfl, hnew.trans (List.sublist_append_left _ _)⟩
    · by_cases hnil : kept ++ new = []
      · rw [hnil] at hp
        cases hp
      rw [step_up hnil] at hp
      obtain rfl := Option.some.inj hp
      -- What is taken off is a name put on before, if there is one, and else one of those at first.
      by_cases hempty : new = []
      · subst hempty
        refine ⟨kept.dropLast, [], kept.dropLast_prefix.trans hkept, ?_, List.nil_sublist _⟩
        rw [List.append_nil, List.append_nil]
      · have hshorter := (List.dropLast_sublist new).trans hnew
        exact ⟨kept, new.dropLast, hkept, List.dropLast_append_of_ne_nil hempty,
          hshorter.trans (List.sublist_append_left _ _)⟩
    · rw [step_segment hsegment] at hp
      obtain rfl := Option.some.inj hp
      refine ⟨kept, new ++ [Text.lower p], hkept, List.append_assoc _ _ _, hnew.append ?_⟩
      simp [hsegment]

theorem isSegment_lower (h : IsSegment p) : IsSegment (Text.lower p) := by
  obtain ⟨hempty, hdot, hdots⟩ := h
  -- Dots in lower case are dots, and nothing else is.
  have hmarks {d : String} (hd : ∀ c ∈ d.toList, Text.Case.IsMark c) (hne : p ≠ d) :
      Text.lower p ≠ d := by
    intro he
    rw [← he] at hd
    exact hne ((Text.lower_of_isMark hd).symm.trans he)
  exact ⟨Text.lower_ne_empty hempty, hmarks (by simp [Text.Case.IsMark]) hdot,
    hmarks (by simp [Text.Case.IsMark]) hdots⟩

/-- What is put on is the name of something, in lower case. -/
theorem name_of_mem_new {new : List String} {n : String} (hps : ∀ p ∈ ps, '/' ∉ p.toList)
    (hnew : new.Sublist ((ps.filter (IsSegment ·)).map Text.lower)) (hn : n ∈ new) :
    isName n = true ∧ IsSegment n ∧ Text.lower n = n := by
  obtain ⟨p, hp, rfl⟩ := List.mem_map.1 (hnew.subset hn)
  obtain ⟨hp, hsegment⟩ := List.mem_filter.1 hp
  have hsegment := of_decide_eq_true hsegment
  exact ⟨isName_lower (isName_iff.2 ⟨hsegment.1, hps p hp⟩), isSegment_lower hsegment,
    Text.lower_lower p⟩

theorem walk_isName (hns : ∀ n ∈ ns, isName n = true) (hps : ∀ p ∈ ps, '/' ∉ p.toList)
    (h : walk ns ps = some ms) : ∀ n ∈ ms, isName n = true := by
  obtain ⟨kept, new, hkept, rfl, hnew⟩ := walk_names h
  intro n hn
  obtain hn | hn := List.mem_append.1 hn
  · exact hns n (hkept.subset hn)
  · exact (name_of_mem_new hps hnew hn).1

end Names

/-! ## The last part -/

/-- A name that ends as the name of a source file does. -/
def HasEnding (n : String) : Prop :=
  ".fx".toList <:+ n.toList ∨ ".js".toList <:+ n.toList

/-- The parts that are an ending alone, or an ending after one or two dots. -/
def bareEndings : List String :=
  [".fx", "..fx", "...fx", ".js", "..js", "...js"]

section Last

variable {ns ps : List String} {n p : String}

theorem eq_append_of_suffix {ending : String} (h : ending.toList <:+ n.toList) :
    n = String.ofList (n.toList.take (n.toList.length - ending.length)) ++ ending := by
  rw [← String.toList_inj, String.toList_append, String.toList_ofList, ← String.length_toList]
  exact (List.suffix_iff_eq_append.1 h).symm

theorem stem_of_not_hasEnding (h : ¬ HasEnding n) : stem n = n := by
  obtain ⟨hfx, hjs⟩ := not_or.1 h
  simp only [stem, List.isSuffixOf_iff_suffix]
  rw [if_neg hfx, if_neg hjs]
  rfl

theorem eq_append_of_hasEnding (h : HasEnding n) : n = stem n ++ ".fx" ∨ n = stem n ++ ".js" := by
  simp only [stem, List.isSuffixOf_iff_suffix]
  by_cases hfx : ".fx".toList <:+ n.toList
  · rw [if_pos hfx]
    exact .inl (eq_append_of_suffix hfx)
  · have hjs := h.resolve_left hfx
    rw [if_neg hfx, if_pos hjs]
    exact .inr (eq_append_of_suffix hjs)

theorem slash_not_mem_stem (h : '/' ∉ n.toList) : '/' ∉ (stem n).toList := by
  by_cases hending : HasEnding n
  · intro hm
    obtain hn | hn := eq_append_of_hasEnding hending
    all_goals
      rw [hn, String.toList_append] at h
      exact h (List.mem_append_left _ hm)
  · rwa [stem_of_not_hasEnding hending]

/-- What is more than dots and an ending names something without its ending as well. -/
theorem isSegment_stem (h : IsSegment p) (hbare : p ∉ bareEndings) : IsSegment (stem p) := by
  by_cases hending : HasEnding p
  · have hdots : ∀ d ∈ ["", ".", ".."], d ++ ".fx" ∈ bareEndings ∧ d ++ ".js" ∈ bareEndings := by
      decide
    by_contra hstem
    have hmem : stem p ∈ ["", ".", ".."] := by
      have hcases := part_cases (stem p)
      simp only [List.mem_cons, List.not_mem_nil]
      tauto
    obtain ⟨hfx, hjs⟩ := hdots _ hmem
    obtain hp | hp := eq_append_of_hasEnding hending
    · rw [← hp] at hfx
      exact hbare hfx
    · rw [← hp] at hjs
      exact hbare hjs
  · rwa [stem_of_not_hasEnding hending]

theorem stem_of_not_isSegment (h : ¬ IsSegment p) : stem p = p := by
  obtain (rfl | rfl) | rfl | hp := part_cases p
  · decide
  · decide
  · decide
  · exact absurd hp h

theorem follow_cons {rest : List String} (h : rest ≠ []) :
    follow ns (p :: rest) = (step ns p).bind (follow · rest) := by
  have hempty : rest.isEmpty = false := by simpa using h
  rw [follow, step]
  split
  · rfl
  · split
    · split <;> rfl
    · simp [hempty]

theorem follow_singleton :
    follow ns [p] = if IsSegment p then some (ns ++ [Text.lower (stem p)]) else step ns p := by
  obtain (rfl | rfl) | rfl | hsegment := part_cases p
  · rfl
  · rfl
  · cases ns <;> rfl
  · obtain ⟨hempty, hdot, hdots⟩ := id hsegment
    simp [follow, hempty, hdot, hdots, hsegment]

theorem follow_append {qs : List String} (h : qs ≠ []) :
    follow ns (ps ++ qs) = (walk ns ps).bind (follow · qs) := by
  induction ps generalizing ns with
  | nil => rfl
  | cons p ps ih =>
    rw [List.cons_append, follow_cons (List.append_ne_nil_of_right_ne_nil ps h), walk_cons,
      Option.bind_assoc]
    exact congrArg _ (funext fun ms => ih)

theorem follow_eq_none_iff : follow ns (ps ++ [p]) = none ↔ Climbs ns.length (ps ++ [p]) := by
  have hlast (ms : List String) : follow ms [p] = none ↔ walk ms [p] = none := by
    rw [follow_singleton, walk_singleton]
    by_cases hp : IsSegment p
    · simp [hp, step_segment]
    · rw [if_neg hp]
  rw [← walk_eq_none_iff, follow_append (List.cons_ne_nil p []), walk_append,
    Option.bind_eq_none_iff, Option.bind_eq_none_iff]
  exact forall₂_congr fun ms _ => hlast ms

/-- An ending can be taken off first, unless nothing but dots is left. -/
theorem follow_eq_walk (h : p ∉ bareEndings) :
    follow ns (ps ++ [p]) = walk ns (ps ++ [stem p]) := by
  rw [follow_append (List.cons_ne_nil p []), walk_append]
  refine congrArg _ (funext fun ms => ?_)
  rw [follow_singleton, walk_singleton]
  split
  · rename_i hp
    exact (step_segment (isSegment_stem hp h)).symm
  · rename_i hp
    rw [stem_of_not_isSegment hp]

theorem follow_of_mem_bareEndings (h : p ∈ bareEndings) :
    follow ns (ps ++ [p]) = (walk ns ps).map (· ++ [stem p]) := by
  have hbare : ∀ p ∈ bareEndings, IsSegment p ∧ Text.lower (stem p) = stem p := by decide
  obtain ⟨hsegment, hlower⟩ := hbare p h
  rw [follow_append (List.cons_ne_nil p []), Option.map_eq_bind]
  refine congrArg _ (funext fun ms => ?_)
  rw [follow_singleton, if_pos hsegment, hlower]
  rfl

end Last

/-! ## Specifiers -/

def parts (specifier : String) : List String :=
  specifier.splitOn "/"

def lastPart (specifier : String) : String :=
  (parts specifier).getLastD ""

section Specifier

variable {p : String}

theorem slash_not_mem_of_mem_parts {specifier : String} (h : p ∈ parts specifier) :
    '/' ∉ p.toList := by
  rw [parts, splitOn_slash] at h
  obtain ⟨cs, hcs, rfl⟩ := List.mem_map.1 h
  rw [String.toList_ofList]
  exact not_mem_of_mem_splitOn hcs

theorem parts_ne_nil (specifier : String) : parts specifier ≠ [] := by
  rw [parts, splitOn_slash]
  exact mt List.map_eq_nil_iff.1 (List.splitOn_ne_nil '/' _)

theorem parts_eq (specifier : String) :
    parts specifier = (parts specifier).dropLast ++ [lastPart specifier] := by
  have hne := parts_ne_nil specifier
  rw [lastPart, List.getLastD_eq_getLast?, List.getLast?_eq_some_getLast hne, Option.getD_some,
    List.dropLast_append_getLast]

theorem parts_append (specifier next : String) :
    parts (specifier ++ "/" ++ next) = parts specifier ++ parts next := by
  have hslash : "/".toList = ['/'] := rfl
  simp only [parts, splitOn_slash, String.toList_append, hslash, ← List.map_append,
    List.append_assoc, List.singleton_append, List.splitOn_append_cons_self]

theorem resolve?_eq (folder specifier : String) :
    resolve? folder specifier = (follow (pathParts folder) (parts specifier)).map Tree.path :=
  rfl

theorem slash_not_mem_stemmed (specifier : String)
    (h : p ∈ (parts specifier).dropLast ++ [stem (lastPart specifier)]) : '/' ∉ p.toList := by
  obtain h | h := List.mem_append.1 h
  · exact slash_not_mem_of_mem_parts (List.mem_of_mem_dropLast h)
  · rw [List.mem_singleton.1 h]
    have hlast : lastPart specifier ∈ parts specifier := by
      rw [parts_eq]
      exact List.mem_append_right _ (List.mem_singleton_self _)
    exact slash_not_mem_stem (slash_not_mem_of_mem_parts hlast)

end Specifier

/-- A specifier whose last part is more than dots and an ending leads to a key, which begins with names
of the folder and goes on with names from the specifier. -/
theorem key_of_stemmed {path specifier key : String} (hbare : lastPart specifier ∉ bareEndings)
    (h : resolve? (pathKey path) specifier = some key) :
    pathKey key = key ∧ ∃ kept new, kept <+: pathParts (pathKey path) ∧
      key = Tree.path (kept ++ new) ∧
      new.Sublist ((((parts specifier).dropLast ++ [stem (lastPart specifier)]).filter
        (IsSegment ·)).map Text.lower) ∧
      ∀ n ∈ new, isName n = true ∧ IsSegment n ∧ Text.lower n = n := by
  rw [resolve?_eq, parts_eq, follow_eq_walk hbare] at h
  obtain ⟨ms, hms, rfl⟩ := Option.map_eq_some_iff.1 h
  have hparts (p : String) := slash_not_mem_stemmed (p := p) specifier
  have hnames := walk_isName (fun _ hn => isName_of_mem_pathParts hn) hparts hms
  obtain ⟨kept, new, hkept, rfl, hnew⟩ := walk_names hms
  have hall (n : String) := name_of_mem_new (n := n) hparts hnew
  refine ⟨pathKey_of_lower hnames fun n hn => ?_, kept, new, hkept, rfl, hnew, hall⟩
  obtain hn | hn := List.mem_append.1 hn
  · exact lower_of_mem_pathKey (hkept.subset hn)
  · exact (hall n hn).2.2

theorem resolve?_of_not_hasEnding {folder specifier : String}
    (h : ¬ HasEnding (lastPart specifier)) :
    resolve? folder specifier = (walk (pathParts folder) (parts specifier)).map Tree.path := by
  have hbare : lastPart specifier ∉ bareEndings := by
    intro hm
    have hall : ∀ p ∈ bareEndings, stem p ≠ p := by decide
    exact hall _ hm (stem_of_not_hasEnding h)
  rw [resolve?_eq, parts_eq, follow_eq_walk hbare, stem_of_not_hasEnding h]

/-- One specifier after another leads to the same as both at once. -/
theorem resolve?_append {folder specifier : String} (h : ¬ HasEnding (lastPart specifier))
    (next : String) :
    resolve? folder (specifier ++ "/" ++ next) =
      (resolve? folder specifier).bind (resolve? · next) := by
  rw [resolve?_eq, parts_append, resolve?_of_not_hasEnding h, follow_append (parts_ne_nil next),
    Option.map_bind, Option.bind_map]
  refine Option.bind_congr fun ms hms => ?_
  have hnames := walk_isName (fun _ hn => isName_of_mem_pathParts hn)
    (fun _ => slash_not_mem_of_mem_parts) hms
  rw [Function.comp_apply, Function.comp_apply, resolve?_eq, pathParts_path hnames]

/-- Relative specifiers from the folder of a path.

There is no key exactly if the parts climb above the root.  Otherwise the key is one that paths have,
made of names of the folder and then of names from the specifier, unless the last part is one of
the six that are an ending after dots or nothing; then the key ends in what is before the ending.
A specifier without an ending is followed part by part, so that what comes after it can be followed
from where it leads to. -/
theorem specifiers_resolve (path specifier : String) :
    (resolve? (pathKey path) specifier = none ↔
      Climbs (pathParts (pathKey path)).length (parts specifier)) ∧
    (lastPart specifier ∉ bareEndings → ∀ key, resolve? (pathKey path) specifier = some key →
      pathKey key = key ∧ ∃ kept new, kept <+: pathParts (pathKey path) ∧
        key = Tree.path (kept ++ new) ∧
        new.Sublist ((((parts specifier).dropLast ++ [stem (lastPart specifier)]).filter
          (IsSegment ·)).map Text.lower) ∧
        ∀ n ∈ new, isName n = true ∧ IsSegment n ∧ Text.lower n = n) ∧
    (lastPart specifier ∈ bareEndings → resolve? (pathKey path) specifier =
      (walk (pathParts (pathKey path)) (parts specifier).dropLast).map fun ms =>
        Tree.path (ms ++ [stem (lastPart specifier)])) ∧
    (¬ HasEnding (lastPart specifier) →
      resolve? (pathKey path) specifier =
        (walk (pathParts (pathKey path)) (parts specifier)).map Tree.path ∧
      ∀ next, resolve? (pathKey path) (specifier ++ "/" ++ next) =
        (resolve? (pathKey path) specifier).bind (resolve? · next)) := by
  refine ⟨?_, fun hbare _ => key_of_stemmed hbare, fun hbare => ?_, fun hending =>
    ⟨resolve?_of_not_hasEnding hending, resolve?_append hending⟩⟩
  · rw [resolve?_eq, Option.map_eq_none_iff, parts_eq, follow_eq_none_iff]
  · rw [resolve?_eq, parts_eq, follow_of_mem_bareEndings hbare, List.dropLast_concat, Option.map_map]
    rfl

theorem specifiers_resolve_beside : lastPart "../Square.fx" ∉ bareEndings ∧
    resolve? (pathKey "Shapes/Round") "../Square.fx" = some "shapes/square" ∧
    pathKey "shapes/square" = "shapes/square" := by
  have hlast : lastPart "../Square.fx" = "Square.fx" := by
    rw [lastPart, parts, splitOn_slash]
    decide
  have hbare : lastPart "../Square.fx" ∉ bareEndings := by
    rw [hlast]
    decide
  have hkey : resolve? (pathKey "Shapes/Round") "../Square.fx" = some "shapes/square" := by
    have hpath : "Shapes/Round" = Tree.path ["Shapes", "Round"] := by decide
    have hfolder : pathKey "Shapes/Round" = Tree.path ["shapes", "round"] := by
      rw [hpath, pathKey_path (by decide)]
      decide
    rw [hfolder, resolve?_eq, pathParts_path (by decide), parts, splitOn_slash]
    decide
  exact ⟨hbare, hkey, ((specifiers_resolve "Shapes/Round" "../Square.fx").2.1 hbare _ hkey).1⟩

/-- Dots before an ending are put on as they are, though the specifier does not climb above the root. -/
theorem bare_ending_stays : isRelative "./...fx" = true ∧ ¬ Climbs 0 (parts "./...fx") ∧
    resolve? "" "./...fx" = some ".." ∧ resolve? "shapes" "./.fx" = some "shapes/" := by
  have hdots : parts "./...fx" = [".", "...fx"] := by
    rw [parts, splitOn_slash]
    decide
  have hempty : parts "./.fx" = [".", ".fx"] := by
    rw [parts, splitOn_slash]
    decide
  refine ⟨by with_unfolding_all rfl, ?_, ?_, ?_⟩
  · have hwalk : walk [] [".", "...fx"] ≠ none := by decide
    rw [hdots]
    exact fun hclimbs => hwalk (walk_eq_none_iff.2 hclimbs)
  · have hroot : pathParts "" = [] := @pathParts_path [] (by decide)
    rw [resolve?_eq, hroot, hdots]
    decide
  · have hfolder : pathParts "shapes" = ["shapes"] := @pathParts_path ["shapes"] (by decide)
    rw [resolve?_eq, hfolder, hempty]
    decide
end Import
end Workbook
