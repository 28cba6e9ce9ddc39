/-
How the outline of a tree is found.

Of the items of a folder those are found that no item before them shares its name with, up to case
(`firsts`), whatever is in other folders: a key tells in which folder a name is.  So what is found in
the folders so far is theirs, folder by folder (`Explored`), and since no listing is read twice, the
folders come to an end before the fuel does (`crawls_ofTree`).
-/
import Mathlib
import Workbook.Proofs.Outline
import Workbook.Proofs.Outline.Key

namespace Workbook
namespace Outline

variable {t : Tree} {o o' : Outline} {f g p : Folder} {i j : Tree.Item} {next : Nat}

/-! ## Going on to the end -/

/-- Finding all from folder number `next` on ends with an outline. -/
inductive Crawls (t : Tree) : Nat → Outline → Outline → Prop
  | done {next : Nat} {o : Outline} (h : o.folders[next]? = none) : Crawls t next o o
  | step {next : Nat} {o o' : Outline} {f : Folder} (h : o.folders[next]? = some f)
    (rest : Crawls t (next + 1) ((itemsOf t f).foldl (add f) o) o') : Crawls t next o o'

/-! ## One folder -/

/-- The folder that an item of a folder is. -/
def Folder.folder (f : Folder) (i : Tree.Item) : Folder :=
  ⟨childKey f.key i.name, i.name, f.segments ++ [i.name], i.createdAt, some f.key⟩

/-- The expression that an item of a folder is. -/
def Folder.expression (f : Folder) (i : Tree.Item) : Expression :=
  ⟨childKey f.key i.name, i.name, f.segments ++ [i.name], i.language.getD .formula, i.createdAt, f.key⟩

/-- The items with a name that no item before them has, up to case; some have been seen. -/
def firsts : List String → List Tree.Item → List Tree.Item
  | _, [] => []
  | seen, i :: rest =>
    if isName i.name && Text.lower i.name ∉ seen then i :: firsts (Text.lower i.name :: seen) rest
    else firsts seen rest

theorem firsts_cons (seen : List String) (i : Tree.Item) (rest : List Tree.Item) :
    firsts seen (i :: rest) =
      if isName i.name && Text.lower i.name ∉ seen then
        i :: firsts (Text.lower i.name :: seen) rest
      else firsts seen rest := rfl

theorem firsts_sublist (seen : List String) (items : List Tree.Item) :
    (firsts seen items).Sublist items := by
  induction items generalizing seen with
  | nil => exact List.Sublist.refl _
  | cons i rest ih =>
    rw [firsts_cons]
    split
    · exact (ih _).cons_cons i
    · exact (ih _).cons i

theorem isName_of_mem_firsts {seen : List String} {items : List Tree.Item}
    (h : i ∈ firsts seen items) : isName i.name = true ∧ Text.lower i.name ∉ seen := by
  induction items generalizing seen with
  | nil => exact absurd h List.not_mem_nil
  | cons j rest ih =>
    rw [firsts_cons] at h
    split at h
    · rename_i hj
      obtain rfl | h := List.mem_cons.1 h
      · simpa using hj
      · obtain ⟨hname, hseen⟩ := ih h
        exact ⟨hname, fun hm => hseen (List.mem_cons_of_mem _ hm)⟩
    · exact ih h

theorem nodup_firsts (seen : List String) (items : List Tree.Item) :
    ((firsts seen items).map fun i => Text.lower i.name).Nodup := by
  induction items generalizing seen with
  | nil => exact List.nodup_nil
  | cons i rest ih =>
    rw [firsts_cons]
    split
    · rw [List.map_cons, List.nodup_cons]
      refine ⟨fun hm => ?_, ih _⟩
      obtain ⟨j, hj, he⟩ := List.mem_map.1 hm
      exact (isName_of_mem_firsts hj).2 (he ▸ List.mem_cons_self)
    · exact ih seen

/-- Which of the items are found. -/
theorem mem_firsts_iff {seen : List String} {before after : List Tree.Item}
    (hname : isName i.name = true) (hi : ∀ j ∈ before, i ≠ j) :
    i ∈ firsts seen (before ++ i :: after) ↔ Text.lower i.name ∉ seen ∧
      ∀ j ∈ before, isName j.name = true → Text.lower j.name ≠ Text.lower i.name := by
  induction before generalizing seen with
  | nil =>
    constructor
    · exact fun h => ⟨(isName_of_mem_firsts h).2, fun _ hj => absurd hj List.not_mem_nil⟩
    · rintro ⟨hseen, -⟩
      rw [List.nil_append, firsts_cons, if_pos (by simp [hname, hseen])]
      exact List.mem_cons_self
  | cons j before ih =>
    obtain ⟨hij, hi⟩ := List.forall_mem_cons.1 hi
    rw [List.cons_append, firsts_cons, List.forall_mem_cons]
    split
    · rename_i hj
      simp only [Bool.and_eq_true, decide_eq_true_eq] at hj
      rw [List.mem_cons, or_iff_right hij, ih hi, List.mem_cons, not_or]
      constructor
      · rintro ⟨⟨hne, hseen⟩, hrest⟩
        exact ⟨hseen, fun _ => Ne.symm hne, hrest⟩
      · rintro ⟨hseen, hne, hrest⟩
        exact ⟨⟨(hne hj.1).symm, hseen⟩, hrest⟩
    · rename_i hj
      rw [ih hi]
      refine and_congr_right fun hseen => ⟨fun hrest => ⟨fun hjname he => ?_, hrest⟩, And.right⟩
      exact hj (by simp [hjname, he, hseen])

def foldersIn (t : Tree) (f : Folder) : List Folder :=
  ((firsts [] (itemsOf t f)).filter (·.kind = .folder)).map f.folder

def expressionsIn (t : Tree) (f : Folder) : List Expression :=
  ((firsts [] (itemsOf t f)).filter (·.kind = .expression)).map f.expression

/-- Something in the outline has the key. -/
def Has (o : Outline) (key : String) : Prop :=
  (∃ f ∈ o.folders, f.key = key) ∨ ∃ x ∈ o.expressions, x.key = key

theorem not_has_iff {key : String} : ¬ o.Has key ↔ o.folder? key = none ∧ o.expression? key = none := by
  rw [folder?_eq_none, expression?_eq_none, Has, not_or]
  simp only [not_exists, not_and]

/-- The outline with items of a folder, whether or not their keys are free. -/
def adding (o : Outline) (f : Folder) (items : List Tree.Item) : Outline :=
  ⟨o.folders ++ (items.filter (·.kind = .folder)).map f.folder,
    o.expressions ++ (items.filter (·.kind = .expression)).map f.expression⟩

theorem adding_cons (o : Outline) (f : Folder) (i : Tree.Item) (items : List Tree.Item) :
    o.adding f (i :: items) = (o.adding f [i]).adding f items := by
  cases hk : i.kind <;> simp [adding, hk]

theorem has_adding {key : String} :
    (o.adding f [i]).Has key ↔ childKey f.key i.name = key ∨ o.Has key := by
  cases hk : i.kind with
  | folder =>
    simp only [Has, adding, hk, List.filter_cons, List.filter_nil]
    simp only [decide_true, if_true, List.map_singleton, List.mem_append, List.mem_singleton,
      or_and_right, exists_or, exists_eq_left, reduceCtorEq, decide_false, Bool.false_eq_true, if_false,
      List.map_nil, List.append_nil]
    rw [or_assoc, or_left_comm]
    rfl
  | expression =>
    simp only [Has, adding, hk, List.filter_cons, List.filter_nil]
    simp only [decide_true, if_true, List.map_singleton, List.mem_append, List.mem_singleton,
      or_and_right, exists_or, exists_eq_left, reduceCtorEq, decide_false, Bool.false_eq_true, if_false,
      List.map_nil, List.append_nil]
    rw [← or_assoc, or_comm]
    rfl

theorem add_eq_of_not (h : ¬ (isName i.name = true ∧ ¬ o.Has (childKey f.key i.name))) :
    o.add f i = o := by
  unfold add
  refine if_pos ?_
  by_contra hn
  simp only [Bool.or_eq_true, Bool.not_eq_true', not_or, Option.not_isSome_iff_eq_none,
    Bool.not_eq_false] at hn
  exact h ⟨hn.1.1, not_has_iff.2 ⟨hn.1.2, hn.2⟩⟩

theorem add_eq_adding (hname : isName i.name = true) (h : ¬ o.Has (childKey f.key i.name)) :
    o.add f i = o.adding f [i] := by
  obtain ⟨hfolder, hexpression⟩ := not_has_iff.1 h
  have hfree : ¬ (!isName i.name || (o.folder? (childKey f.key i.name)).isSome ||
      (o.expression? (childKey f.key i.name)).isSome) = true := by
    rw [hname, hfolder, hexpression]
    decide
  unfold add
  simp only
  rw [if_neg hfree]
  cases hk : i.kind <;> simp [adding, hk, Folder.folder, Folder.expression]

/-- Where exactly the names that have been seen have their keys, the first items are added. -/
theorem foldl_add (items : List Tree.Item) {seen : List String}
    (h : ∀ n, isName n = true → (Text.lower n ∈ seen ↔ o.Has (childKey f.key n))) :
    items.foldl (add f) o = o.adding f (firsts seen items) := by
  induction items generalizing o seen with
  | nil => simp [firsts, adding]
  | cons i rest ih =>
    rw [List.foldl_cons, firsts_cons]
    by_cases hi : isName i.name = true ∧ ¬ o.Has (childKey f.key i.name)
    · have hseen : Text.lower i.name ∉ seen := mt (h i.name hi.1).1 hi.2
      rw [if_pos (by simp [hi.1, hseen]), add_eq_adding hi.1 hi.2,
        adding_cons o f i (firsts _ rest)]
      refine ih fun n hn => ?_
      rw [List.mem_cons, has_adding, h n hn]
      refine or_congr_left ⟨fun he => ?_, fun he => (childKey_inj he).symm⟩
      unfold childKey
      rw [he]
    · have hskip : ¬ (isName i.name && Text.lower i.name ∉ seen) = true := by
        intro hs
        simp only [Bool.and_eq_true, decide_eq_true_eq] at hs
        exact hi ⟨hs.1, mt (h i.name hs.1).2 hs.2⟩
      rw [if_neg hskip, add_eq_of_not hi]
      exact ih h

/-! ## Names and keys -/

/-- The names on the way to the folder are names, and its key is that of the path. -/
structure Folder.Named (f : Folder) : Prop where
  names : ∀ n ∈ f.segments, isName n = true
  key : f.key = pathKey (Tree.path f.segments)

theorem named_root : root.Named :=
  have hnone : ∀ n ∈ ([] : List String), isName n = true := fun _ hn => absurd hn List.not_mem_nil
  ⟨hnone, (pathKey_path hnone).symm⟩

section Named

variable {n m : String}

theorem Folder.Named.append (h : f.Named) (hn : isName n = true) :
    ∀ m ∈ f.segments ++ [n], isName m = true := by
  intro m hm
  obtain hm | hm := List.mem_append.1 hm
  · exact h.names m hm
  · rw [List.mem_singleton.1 hm]
    exact hn

theorem Folder.Named.childKey (h : f.Named) (hn : isName n = true) :
    Workbook.childKey f.key n = pathKey (Tree.path (f.segments ++ [n])) := by
  rw [h.key, childKey_pathKey h.names hn]

theorem Folder.Named.folder (h : f.Named) (hi : isName i.name = true) : (f.folder i).Named :=
  ⟨h.append hi, h.childKey hi⟩

theorem Folder.Named.childKey_ne_empty (h : f.Named) (hn : isName n = true) :
    Workbook.childKey f.key n ≠ "" := by
  rw [h.childKey hn, pathKey_path (h.append hn)]
  refine mt (path_eq_empty (isName_map_lower (h.append hn))).1 ?_
  simp

/-- Names in folders with different keys have different keys. -/
theorem Folder.Named.childKey_ne (hf : f.Named) (hg : g.Named) (hn : isName n = true)
    (hm : isName m = true) (hne : f.key ≠ g.key) :
    Workbook.childKey f.key n ≠ Workbook.childKey g.key m := by
  intro he
  rw [hf.childKey hn, hg.childKey hm] at he
  have hlower := lower_eq_of_pathKey (hf.append hn) (hg.append hm) he
  rw [List.map_append, List.map_append] at hlower
  have hsegments := (List.append_inj' hlower rfl).1
  rw [hf.key, hg.key, pathKey_path hf.names, pathKey_path hg.names, hsegments] at hne
  exact hne rfl

end Named

/-! ## Folder by folder -/

/-- What is found in the first folders is theirs. -/
structure Explored (t : Tree) (next : Nat) (o : Outline) : Prop where
  folders : o.folders = root :: (o.folders.take next).flatMap (foldersIn t)
  expressions : o.expressions = (o.folders.take next).flatMap (expressionsIn t)
  named : ∀ f ∈ o.folders, f.Named
  distinct : (o.folders.map (·.key)).Nodup

theorem explored_root (t : Tree) : Explored t 0 ⟨[root], []⟩ where
  folders := rfl
  expressions := rfl
  named _ hf := List.mem_singleton.1 hf ▸ named_root
  distinct := List.nodup_singleton _

theorem mem_foldersIn : g ∈ foldersIn t f ↔
    ∃ i ∈ firsts [] (itemsOf t f), i.kind = .folder ∧ f.folder i = g := by
  simp [foldersIn, and_assoc]

theorem mem_expressionsIn {x : Expression} : x ∈ expressionsIn t f ↔
    ∃ i ∈ firsts [] (itemsOf t f), i.kind = .expression ∧ f.expression i = x := by
  simp [expressionsIn, and_assoc]

theorem nodup_keys (t : Tree) (f : Folder) : ((foldersIn t f).map (·.key)).Nodup := by
  have hkeys : (((firsts [] (itemsOf t f)).map fun i => Text.lower i.name).map
      (joinPath f.key)).Nodup :=
    (nodup_firsts [] (itemsOf t f)).map (joinPath_injective f.key)
  rw [List.map_map] at hkeys
  rw [foldersIn, List.map_map]
  exact hkeys.sublist (List.filter_sublist.map _)

namespace Explored

variable (h : Explored t next o)
include h

theorem key_ne (hf : o.folders[next]? = some f) (hp : p ∈ o.folders.take next) : p.key ≠ f.key := by
  have hdistinct := h.distinct
  rw [← List.take_append_drop next o.folders, List.map_append] at hdistinct
  have hdrop : f ∈ o.folders.drop next := by
    rw [List.mem_iff_getElem?]
    exact ⟨0, by rw [List.getElem?_drop]; exact hf⟩
  exact (List.nodup_append.1 hdistinct).2.2 _ (List.mem_map_of_mem hp) _ (List.mem_map_of_mem hdrop)

/-- No name in the next folder has been found. -/
theorem not_has (hf : o.folders[next]? = some f) {n : String} (hn : isName n = true) :
    ¬ o.Has (childKey f.key n) := by
  have hnamed := h.named f (List.mem_of_getElem? hf)
  have hne {p : Folder} {i : Tree.Item} (hp : p ∈ o.folders.take next) (hi : isName i.name = true) :
      childKey p.key i.name ≠ childKey f.key n :=
    (h.named p (List.mem_of_mem_take hp)).childKey_ne hnamed hi hn (h.key_ne hf hp)
  rintro (⟨g, hg, he⟩ | ⟨x, hx, he⟩)
  · rw [h.folders] at hg
    obtain rfl | hg := List.mem_cons.1 hg
    · exact hnamed.childKey_ne_empty hn he.symm
    · obtain ⟨p, hp, hg⟩ := List.mem_flatMap.1 hg
      obtain ⟨i, hi, -, rfl⟩ := mem_foldersIn.1 hg
      exact hne hp (isName_of_mem_firsts hi).1 he
  · rw [h.expressions] at hx
    obtain ⟨p, hp, hx⟩ := List.mem_flatMap.1 hx
    obtain ⟨i, hi, -, rfl⟩ := mem_expressionsIn.1 hx
    exact hne hp (isName_of_mem_firsts hi).1 he

theorem foldl_add_eq (hf : o.folders[next]? = some f) :
    (itemsOf t f).foldl (add f) o = ⟨o.folders ++ foldersIn t f, o.expressions ++ expressionsIn t f⟩ := by
  have hnone (n : String) (hn : isName n = true) :
      Text.lower n ∈ ([] : List String) ↔ o.Has (childKey f.key n) :=
    iff_of_false List.not_mem_nil (h.not_has hf hn)
  exact foldl_add _ hnone

/-- The next folder adds what is in it. -/
theorem step (hf : o.folders[next]? = some f) :
    Explored t (next + 1) ((itemsOf t f).foldl (add f) o) := by
  have hmem := List.mem_of_getElem? hf
  have hlt : next < o.folders.length := (List.getElem?_eq_some_iff.1 hf).1
  have htake : (o.folders ++ foldersIn t f).take (next + 1) = o.folders.take next ++ [f] := by
    rw [List.take_append_of_le_length hlt, List.take_add_one, hf]
    rfl
  rw [h.foldl_add_eq hf]
  refine ⟨?_, ?_, fun g hg => ?_, ?_⟩
  · simp only [htake, List.flatMap_append, List.flatMap_singleton]
    rw [← List.cons_append, ← h.folders]
  · simp only [htake, List.flatMap_append, List.flatMap_singleton]
    rw [← h.expressions]
  · obtain hg | hg := List.mem_append.1 hg
    · exact h.named g hg
    · obtain ⟨i, hi, -, rfl⟩ := mem_foldersIn.1 hg
      exact (h.named f hmem).folder (isName_of_mem_firsts hi).1
  · rw [List.map_append, List.nodup_append]
    refine ⟨h.distinct, ?_, fun key hkey key' hkey' he => ?_⟩
    · exact nodup_keys t f
    · obtain ⟨g, hg, rfl⟩ := List.mem_map.1 hkey
      obtain ⟨g', hg', rfl⟩ := List.mem_map.1 hkey'
      obtain ⟨i, hi, -, rfl⟩ := mem_foldersIn.1 hg'
      exact h.not_has hf (isName_of_mem_firsts hi).1 (.inl ⟨g, hg, he⟩)

end Explored

/-! ## The end of it -/

/-- How many items there are in all listings. -/
def itemCount (t : Tree) : Nat :=
  (t.listings.flatMap fun (_, l) => l.getD []).length

/-- Different listings have no more items than all of them. -/
theorem sum_lookup_le (listings : List (String × Option (List Tree.Item))) {keys : List String}
    (h : keys.Nodup) :
    (keys.map fun k => (((listings.lookup k).bind id).getD []).length).sum ≤
      (listings.flatMap fun (_, l) => l.getD []).length := by
  induction listings generalizing keys with
  | nil => simp
  | cons entry rest ih =>
    obtain ⟨key, l⟩ := entry
    have hrest {ks : List String} (hks : ks.Nodup) (hkey : key ∉ ks) :
        (ks.map fun k => ((((((key, l) :: rest).lookup k)).bind id).getD []).length).sum ≤
          (rest.flatMap fun (_, l) => l.getD []).length := by
      refine le_of_eq_of_le (congrArg List.sum (List.map_congr_left fun k hk => ?_)) (ih hks)
      have hne : (k == key) = false := beq_false_of_ne fun he => hkey (he ▸ hk)
      rw [List.lookup_cons, hne]
    rw [List.flatMap_cons, List.length_append]
    by_cases hkey : key ∈ keys
    · have hperm := List.perm_cons_erase hkey
      have hlookup : ((key, l) :: rest).lookup key = some l := by
        rw [List.lookup_cons, beq_self_eq_true]
      have hothers := hrest (h.erase key) h.not_mem_erase
      rw [(hperm.map _).sum_nat, List.map_cons, List.sum_cons, hlookup]
      exact Nat.add_le_add_left hothers _
    · exact Nat.le_trans (hrest h hkey) (Nat.le_add_left _ _)

theorem length_foldersIn_le (t : Tree) (f : Folder) :
    (foldersIn t f).length ≤ (((t.listings.lookup (Tree.path f.segments)).bind id).getD []).length := by
  have hitems : (itemsOf t f).length ≤
      (((t.listings.lookup (Tree.path f.segments)).bind id).getD []).length := by
    unfold itemsOf Tree.list
    cases t.listings.lookup (Tree.path f.segments) with
    | none => simp
    | some l => cases l <;> simp
  rw [foldersIn, List.length_map]
  exact (List.length_filter_le _ _).trans ((firsts_sublist [] _).length_le.trans hitems)

/-- There are no more folders than items, and the root. -/
theorem Explored.length_le (h : Explored t next o) : o.folders.length ≤ itemCount t + 1 := by
  have hpaths : ((o.folders.take next).map fun f => Tree.path f.segments).Nodup := by
    have hkeys := h.distinct.sublist ((List.take_sublist next o.folders).map _)
    have heq : (o.folders.take next).map (·.key) =
        ((o.folders.take next).map fun f => Tree.path f.segments).map pathKey := by
      rw [List.map_map]
      exact List.map_congr_left fun f hf => (h.named f (List.mem_of_mem_take hf)).key
    rw [heq] at hkeys
    exact hkeys.of_map _
  have hsum := sum_lookup_le t.listings hpaths
  have hle : ((o.folders.take next).map fun f => (foldersIn t f).length).sum ≤ itemCount t := by
    refine le_trans (List.sum_le_sum fun f _ => length_foldersIn_le t f) ?_
    rw [List.map_map] at hsum
    exact hsum
  rw [h.folders, List.length_cons, List.length_flatMap]
  omega

/-- With fuel for all items, everything is found. -/
theorem Explored.crawls {fuel : Nat} (h : Explored t next o) (hfuel : itemCount t + 1 ≤ next + fuel) :
    Crawls t next o (explore t fuel next o) := by
  induction fuel generalizing next o with
  | zero =>
    refine .done (List.getElem?_eq_none_iff.2 ?_)
    have hle := h.length_le
    omega
  | succ fuel ih =>
    unfold explore
    cases hf : o.folders[next]? with
    | none => exact .done hf
    | some f => exact .step hf (ih (h.step hf) (by omega))

theorem crawls_ofTree (t : Tree) : Crawls t 0 ⟨[root], []⟩ (ofTree t) :=
  (explored_root t).crawls (Nat.le_of_eq (Nat.zero_add _).symm)

theorem Crawls.explored (hc : Crawls t next o o') (h : Explored t next o) :
    ∃ n, o'.folders.length ≤ n ∧ Explored t n o' := by
  induction hc with
  | done hnone => exact ⟨_, List.getElem?_eq_none_iff.1 hnone, h⟩
  | step hf _ ih => exact ih (h.step hf)

/-- Folders that no folder is in add their expressions alone. -/
theorem Crawls.eq_of_flat (hc : Crawls t next o o') (h : Explored t next o)
    (hflat : ∀ f ∈ o.folders.drop next, foldersIn t f = []) :
    o' = ⟨o.folders, o.expressions ++ (o.folders.drop next).flatMap (expressionsIn t)⟩ := by
  induction hc with
  | done hnone =>
    rw [List.drop_eq_nil_of_le (List.getElem?_eq_none_iff.1 hnone), List.flatMap_nil, List.append_nil]
  | step hf _ ih =>
    obtain ⟨hlt, rfl⟩ := List.getElem?_eq_some_iff.1 hf
    rw [List.drop_eq_getElem_cons hlt] at hflat ⊢
    obtain ⟨hnone, hflat⟩ := List.forall_mem_cons.1 hflat
    have hnext := ih (h.step hf)
    rw [h.foldl_add_eq hf, hnone, List.append_nil] at hnext
    rw [hnext hflat, List.flatMap_cons, List.append_assoc]

/-! ## What is found -/

/-- What is found if the folders in the root have no folders in them. -/
theorem ofTree_of_flat {folders : List Folder} (hroot : foldersIn t root = folders)
    (hflat : ∀ f ∈ folders, foldersIn t f = []) :
    ofTree t = ⟨root :: folders, expressionsIn t root ++ folders.flatMap (expressionsIn t)⟩ := by
  have hfound : (⟨[root], []⟩ : Outline).folders[0]? = some root := rfl
  have hcrawls := crawls_ofTree t
  generalize ofTree t = o at hcrawls ⊢
  cases hcrawls with
  | done hnone => cases hfound.symm.trans hnone
  | step hf rest =>
    cases hfound.symm.trans hf
    have hstep := (explored_root t).step hfound
    rw [(explored_root t).foldl_add_eq hfound, hroot] at rest hstep
    exact rest.eq_of_flat hstep hflat

section Listed

variable {items : List Tree.Item} (hlist : t.list f.segments = .ok items)
  (hordered : items.Pairwise fun i j => i.createdAt ≤ j.createdAt)

include hlist hordered

/-- The items of a folder that lists them from the oldest to the youngest. -/
theorem itemsOf_of_list : itemsOf t f = items := by
  unfold itemsOf
  rw [hlist]
  exact List.mergeSort_of_pairwise (hordered.imp fun h => decide_eq_true h)

theorem foldersIn_of_list :
    foldersIn t f = ((firsts [] items).filter (·.kind = .folder)).map f.folder := by
  rw [foldersIn, itemsOf_of_list hlist hordered]

theorem expressionsIn_of_list :
    expressionsIn t f = ((firsts [] items).filter (·.kind = .expression)).map f.expression := by
  rw [expressionsIn, itemsOf_of_list hlist hordered]

end Listed

/-- What is found if the root lists expressions alone. -/
theorem ofTree_of_expressions {items : List Tree.Item} (hlist : t.list root.segments = .ok items)
    (hordered : items.Pairwise fun i j => i.createdAt ≤ j.createdAt)
    (hfolders : ((firsts [] items).filter (·.kind = .folder)).map root.folder = []) :
    ofTree t = ⟨[root], ((firsts [] items).filter (·.kind = .expression)).map root.expression⟩ := by
  have hroot := (foldersIn_of_list hlist hordered).trans hfolders
  rw [ofTree_of_flat hroot fun _ hf => absurd hf List.not_mem_nil, List.flatMap_nil, List.append_nil,
    expressionsIn_of_list hlist hordered]

/-- What is found if the root lists one folder, and that lists expressions alone. -/
theorem ofTree_of_folder {items below : List Tree.Item} (hlist : t.list root.segments = .ok items)
    (hordered : items.Pairwise fun i j => i.createdAt ≤ j.createdAt)
    (hfolder : ((firsts [] items).filter (·.kind = .folder)).map root.folder = [f])
    (hbelow : t.list f.segments = .ok below)
    (hordered' : below.Pairwise fun i j => i.createdAt ≤ j.createdAt)
    (hflat : ((firsts [] below).filter (·.kind = .folder)).map f.folder = []) :
    ofTree t = ⟨[root, f], ((firsts [] items).filter (·.kind = .expression)).map root.expression ++
      ((firsts [] below).filter (·.kind = .expression)).map f.expression⟩ := by
  have hroot := (foldersIn_of_list hlist hordered).trans hfolder
  have hnone := (foldersIn_of_list hbelow hordered').trans hflat
  rw [ofTree_of_flat hroot (List.forall_mem_singleton.2 hnone), List.flatMap_singleton,
    expressionsIn_of_list hlist hordered, expressionsIn_of_list hbelow hordered']

section Found

variable (t : Tree)

theorem explored_ofTree : ∃ n, (ofTree t).folders.length ≤ n ∧ Explored t n (ofTree t) :=
  (crawls_ofTree t).explored (explored_root t)

theorem named_ofTree : ∀ f ∈ (ofTree t).folders, f.Named := by
  obtain ⟨n, -, h⟩ := explored_ofTree t
  exact h.named

theorem distinct_ofTree : ((ofTree t).folders.map (·.key)).Nodup := by
  obtain ⟨n, -, h⟩ := explored_ofTree t
  exact h.distinct

theorem folders_ofTree :
    (ofTree t).folders = root :: (ofTree t).folders.flatMap (foldersIn t) := by
  obtain ⟨n, hn, h⟩ := explored_ofTree t
  have hfolders := h.folders
  rwa [List.take_of_length_le hn] at hfolders

theorem expressions_ofTree :
    (ofTree t).expressions = (ofTree t).folders.flatMap (expressionsIn t) := by
  obtain ⟨n, hn, h⟩ := explored_ofTree t
  have hexpressions := h.expressions
  rwa [List.take_of_length_le hn] at hexpressions

variable {t}

/-- Of lists for folders with different keys, the one of a key. -/
theorem flatMap_filter_key {α : Type} {folders : List Folder} (h : (folders.map (·.key)).Nodup)
    (hf : f ∈ folders) (listOf : Folder → List α) :
    (folders.flatMap fun p => if p.key = f.key then listOf p else []) = listOf f := by
  induction folders with
  | nil => exact absurd hf List.not_mem_nil
  | cons p rest ih =>
    rw [List.map_cons, List.nodup_cons] at h
    rw [List.flatMap_cons]
    obtain rfl | hf := List.mem_cons.1 hf
    · have hnone : (rest.flatMap fun p => if p.key = f.key then listOf p else []) = [] := by
        refine List.flatMap_eq_nil_iff.2 fun p hp => if_neg fun he => ?_
        exact h.1 (he ▸ List.mem_map_of_mem hp)
      rw [if_pos rfl, hnone, List.append_nil]
    · have hne : p.key ≠ f.key := fun he => h.1 (he ▸ List.mem_map_of_mem hf)
      rw [if_neg hne, List.nil_append, ih h.2 hf]

theorem childFolders_ofTree (hf : f ∈ (ofTree t).folders) :
    (ofTree t).childFolders f.key = foldersIn t f := by
  have hparent (p : Folder) : (foldersIn t p).filter (·.parent == some f.key) =
      if p.key = f.key then foldersIn t p else [] := by
    split
    · rename_i he
      refine List.filter_eq_self.2 fun g hg => ?_
      obtain ⟨i, -, -, rfl⟩ := mem_foldersIn.1 hg
      exact beq_iff_eq.2 (congrArg some he)
    · rename_i he
      refine List.filter_eq_nil_iff.2 fun g hg hp => ?_
      obtain ⟨i, -, -, rfl⟩ := mem_foldersIn.1 hg
      exact he (Option.some.inj (beq_iff_eq.1 hp))
  rw [childFolders, folders_ofTree, List.filter_cons_of_neg (by simp [root]), List.filter_flatMap]
  simp only [hparent]
  exact flatMap_filter_key (distinct_ofTree t) hf (foldersIn t)

theorem childExpressions_ofTree (hf : f ∈ (ofTree t).folders) :
    (ofTree t).childExpressions f.key = expressionsIn t f := by
  have hparent (p : Folder) : (expressionsIn t p).filter (·.parent == f.key) =
      if p.key = f.key then expressionsIn t p else [] := by
    split
    · rename_i he
      refine List.filter_eq_self.2 fun x hx => ?_
      obtain ⟨i, -, -, rfl⟩ := mem_expressionsIn.1 hx
      exact beq_iff_eq.2 he
    · rename_i he
      refine List.filter_eq_nil_iff.2 fun x hx hp => ?_
      obtain ⟨i, -, -, rfl⟩ := mem_expressionsIn.1 hx
      exact he (beq_iff_eq.1 hp)
  rw [childExpressions, expressions_ofTree, List.filter_flatMap]
  simp only [hparent]
  exact flatMap_filter_key (distinct_ofTree t) hf (expressionsIn t)

end Found

end Outline
end Workbook
