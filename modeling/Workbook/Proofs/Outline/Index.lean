/-
Trees that are built by adding folders and expressions, and their outlines.

Every addition has a later time than the ones before, so the items of a folder stand in the order in
which they were created, and the folders that a listing has can be listed themselves (`Tree.Orderly`).

In the outline of such a tree no key is there twice, everything is in a folder that is there, a folder's
items stand in the order in which they were created, of items that share a name up to case the first is
there, and the path under which something is listed leads back to it (`Outline.IsIndex`,
`Outline.isIndex_built`).  Over all folders the order is that of the folders, not of creation
(`Outline.not_in_order_of_creation`).
-/
import Mathlib
import Workbook.Proofs.Outline.Crawl
import Workbook.Proofs.Outline.Key

namespace Workbook
namespace Tree

open Outline (isName)

/-- A folder or an expression that is added. -/
inductive Call
  | folder (path : String)
  | expression (path : String) (language : Language) (source : String)
  deriving DecidableEq

def Call.on (t : Tree) : Call → Tree
  | folder path => t.addFolder path
  | expression path language source => t.addExpression path language source

/-- The tree that the calls build, one after another. -/
def built (calls : List Call) : Tree :=
  calls.foldl Call.on empty

variable {t : Tree} {parent name path : String} {kind : ItemKind} {language : Option Language}

/-! ## Listings -/

/-- Whether the folder at a path has a listing. -/
def IsListed (t : Tree) (path : String) : Prop :=
  (t.listings.lookup path).isSome = true

theorem itemsAt_addItem (t : Tree) (parent : String) (kind : ItemKind) (name : String)
    (language : Option Language) (path : String) :
    (t.addItem parent kind name language).itemsAt path =
      if path = parent then t.itemsAt parent ++ [⟨kind, name, t.clock + 1, language⟩]
      else t.itemsAt path := by
  unfold itemsAt addItem
  split
  · rename_i he
    rw [he, Keyed.lookup_put]
    rfl
  · rename_i hne
    rw [Keyed.lookup_put_of_ne hne]

theorem isListed_put {listings : List (String × Option (List Item))} {items : Option (List Item)} :
    ((Keyed.put parent items listings).lookup path).isSome = true ↔
      path = parent ∨ (listings.lookup path).isSome = true := by
  by_cases he : path = parent
  · rw [he, Keyed.lookup_put]
    simp
  · rw [Keyed.lookup_put_of_ne he]
    simp [he]

/-- An empty listing where there was none. -/
def addListing (t : Tree) (path : String) : Tree :=
  if (t.listings.lookup path).isSome then t
  else { t with listings := Keyed.put path (some []) t.listings }

theorem isListed_addListing (t : Tree) (parent path : String) :
    (t.addListing parent).IsListed path ↔ path = parent ∨ t.IsListed path := by
  unfold addListing
  split
  · rename_i h
    exact (or_iff_right_of_imp fun he => he ▸ h).symm
  · exact isListed_put

theorem itemsAt_addListing (t : Tree) (parent path : String) :
    (t.addListing parent).itemsAt path = t.itemsAt path := by
  unfold addListing
  split
  · rfl
  · rename_i h
    unfold itemsAt
    by_cases he : path = parent
    · rw [he, Keyed.lookup_put, Option.not_isSome_iff_eq_none.1 h]
      rfl
    · rw [Keyed.lookup_put_of_ne he]

/-- Whether a folder of this name is listed in the folder. -/
def hasFolder (t : Tree) (parent name : String) : Bool :=
  (t.itemsAt parent).any fun i => i.kind = .folder && i.name = name

theorem addSubfolder_eq (t : Tree) (parent name : String) :
    t.addSubfolder parent name =
      (if t.hasFolder parent name then t else t.addItem parent .folder name none).addListing
        (joinPath parent name) := rfl

/-- Every listing that there is can be had. -/
def IsKnown (t : Tree) : Prop :=
  ∀ path items, t.listings.lookup path = some items → items.isSome = true

theorem IsKnown.put {t' : Tree} {items : List Item} (h : t.IsKnown)
    (hput : t'.listings = Keyed.put parent (some items) t.listings) : t'.IsKnown := by
  intro path found hfound
  rw [hput] at hfound
  by_cases he : path = parent
  · rw [he, Keyed.lookup_put] at hfound
    obtain rfl := Option.some.inj hfound
    rfl
  · rw [Keyed.lookup_put_of_ne he] at hfound
    exact h path found hfound

theorem IsKnown.addListing (h : t.IsKnown) : (t.addListing parent).IsKnown := by
  unfold Tree.addListing
  split
  · exact h
  · exact h.put rfl

theorem IsKnown.addItem (h : t.IsKnown) : (t.addItem parent kind name language).IsKnown :=
  h.put rfl

@[simp] theorem clock_addListing (t : Tree) (path : String) : (t.addListing path).clock = t.clock := by
  unfold addListing
  split <;> rfl

theorem isListed_addItem (h : t.IsListed path) : (t.addItem parent kind name language).IsListed path :=
  isListed_put.2 (.inr h)

/-! ## Order -/

/-- Listings can be had, their items are in order, and their folders are listed. -/
structure Orderly (t : Tree) : Prop where
  known : t.IsKnown
  root : t.IsListed ""
  names : ∀ path, ∀ i ∈ t.itemsAt path, isName i.name = true
  ordered : ∀ path, (t.itemsAt path).Pairwise fun i j => i.createdAt < j.createdAt
  past : ∀ path, ∀ i ∈ t.itemsAt path, i.createdAt ≤ t.clock
  folders : ∀ path, ∀ i ∈ t.itemsAt path, i.kind = .folder → t.IsListed (joinPath path i.name)

theorem orderly_empty : Orderly empty := by
  have hnone (path : String) : empty.itemsAt path = [] := by
    unfold itemsAt empty
    rw [List.lookup_cons]
    cases path == "" <;> rfl
  refine ⟨fun path items h => ?_, rfl, ?_, ?_, ?_, ?_⟩
  · rw [empty, List.lookup_cons] at h
    split at h
    · obtain rfl := Option.some.inj h
      rfl
    · cases h
  all_goals
    intro path
    rw [hnone]
    simp

namespace Orderly

variable (h : t.Orderly)
include h

theorem lookup_eq (hlisted : t.IsListed path) :
    t.listings.lookup path = some (some (t.itemsAt path)) := by
  obtain ⟨items, hitems⟩ := Option.isSome_iff_exists.1 hlisted
  obtain ⟨items, rfl⟩ := Option.isSome_iff_exists.1 (h.known path items hitems)
  rw [itemsAt, hitems]
  rfl

theorem addListing (parent : String) : (t.addListing parent).Orderly := by
  have hlisted := isListed_addListing t parent
  refine ⟨h.known.addListing, (hlisted _).2 (.inr h.root), ?_, ?_, ?_, ?_⟩ <;> intro path <;>
    rw [itemsAt_addListing]
  · exact h.names path
  · exact h.ordered path
  · rw [clock_addListing]
    exact h.past path
  · exact fun i hi hk => (hlisted _).2 (.inr (h.folders path i hi hk))

/-- A tree with one more item, which is later than all others, and listed if it is a folder. -/
theorem concat {t' : Tree} (parent : String) {i : Item} (known : t'.IsKnown)
    (items : ∀ path, t'.itemsAt path = if path = parent then t.itemsAt parent ++ [i] else t.itemsAt path)
    (listed : ∀ path, t.IsListed path → t'.IsListed path) (clock : t'.clock = t.clock + 1)
    (time : i.createdAt = t.clock + 1) (hname : isName i.name = true)
    (hfolder : i.kind = .folder → t'.IsListed (joinPath parent i.name)) : t'.Orderly := by
  have hmem {path : String} {j : Item} (hj : j ∈ t'.itemsAt path) :
      j ∈ t.itemsAt path ∨ (j = i ∧ path = parent) := by
    rw [items] at hj
    split at hj
    · rename_i he
      rw [he]
      exact (List.mem_append.1 hj).imp_right fun hj => ⟨List.mem_singleton.1 hj, rfl⟩
    · exact .inl hj
  refine ⟨known, listed "" h.root, fun path j hj => ?_, fun path => ?_, fun path j hj => ?_,
    fun path j hj hk => ?_⟩
  · obtain hj | ⟨rfl, -⟩ := hmem hj
    · exact h.names path j hj
    · exact hname
  · rw [items]
    split
    · refine List.pairwise_append.2 ⟨h.ordered parent, List.pairwise_singleton _ _, fun j hj k hk => ?_⟩
      have hpast := h.past parent j hj
      rw [List.mem_singleton.1 hk, time]
      omega
    · exact h.ordered path
  · obtain hj | ⟨rfl, -⟩ := hmem hj
    · have hpast := h.past path j hj
      rw [clock]
      omega
    · rw [time, clock]
      omega
  · obtain hj | ⟨rfl, rfl⟩ := hmem hj
    · exact listed _ (h.folders path j hj hk)
    · exact hfolder hk

theorem addSubfolder (hname : isName name = true) : (t.addSubfolder parent name).Orderly := by
  rw [addSubfolder_eq]
  split
  · exact h.addListing _
  · refine h.concat parent (i := ⟨.folder, name, t.clock + 1, none⟩) h.known.addItem.addListing
      (fun path => ?_) (fun path hp => ?_) ?_ rfl hname fun _ => ?_
    · rw [itemsAt_addListing, itemsAt_addItem]
    · exact (isListed_addListing _ _ _).2 (.inr (isListed_addItem hp))
    · rw [clock_addListing]
      rfl
    · exact (isListed_addListing _ _ _).2 (.inl rfl)

theorem addExpressionItem (parent : String) (hname : isName name = true) (language : Language) :
    (t.addItem parent .expression name (some language)).Orderly :=
  h.concat parent (i := ⟨.expression, name, t.clock + 1, some language⟩) h.known.addItem
    (itemsAt_addItem t parent .expression name (some language)) (fun _ => isListed_addItem) rfl rfl hname
    fun hk => by cases hk

omit h in
theorem addFolders (names : List String) (hnames : ∀ n ∈ names, isName n = true) {t : Tree}
    (h : t.Orderly) (parent : String) : (t.addFolders parent names).Orderly := by
  induction names generalizing t parent with
  | nil => exact h
  | cons name rest ih =>
    obtain ⟨hname, hrest⟩ := List.forall_mem_cons.1 hnames
    exact ih hrest (h.addSubfolder hname) _

theorem addFolder (path : String) : (t.addFolder path).Orderly :=
  addFolders _ (fun _ => isName_of_mem_pathParts) h ""

theorem addExpression (path : String) (language : Language) (source : String) :
    (t.addExpression path language source).Orderly := by
  unfold Tree.addExpression
  split
  · exact h
  · rename_i name hlast
    have hname : isName name = true := isName_of_mem_pathParts (List.mem_of_getLast? hlast)
    let parent := Tree.path (pathParts path).dropLast
    have hitem := (h.addFolder parent).addExpressionItem parent hname language
    exact ⟨hitem.known, hitem.root, hitem.names, hitem.ordered, hitem.past, hitem.folders⟩

theorem on (call : Call) : (call.on t).Orderly := by
  cases call with
  | folder path => exact h.addFolder path
  | expression path language source => exact h.addExpression path language source

end Orderly

theorem orderly_built (calls : List Call) : (built calls).Orderly := by
  have hfrom {t : Tree} (h : t.Orderly) : (calls.foldl Call.on t).Orderly := by
    induction calls generalizing t with
    | nil => exact h
    | cons call rest ih => exact ih (h.on call)
  exact hfrom orderly_empty

end Tree

namespace Outline

variable {t : Tree} {o : Outline} {f g : Folder} {i : Tree.Item}

/-- The item of a folder is in the outline. -/
def Shows (o : Outline) (f : Folder) (i : Tree.Item) : Prop :=
  match i.kind with
  | .folder => f.folder i ∈ o.folders
  | .expression => f.expression i ∈ o.expressions

/-- What an outline has to be to find the items of a tree by. -/
structure IsIndex (t : Tree) (o : Outline) : Prop where
  /-- No key is there twice. -/
  distinct : (o.folders.map (·.key) ++ o.expressions.map (·.key)).Nodup
  /-- Each folder but the root is in a folder, which its key goes on from. -/
  folder_parent : ∀ g ∈ o.folders, g = root ∨
    ∃ f ∈ o.folders, g.parent = some f.key ∧ g.key = childKey f.key g.name
  /-- Each expression is in a folder, which its key goes on from. -/
  expression_parent : ∀ x ∈ o.expressions,
    ∃ f ∈ o.folders, x.parent = f.key ∧ x.key = childKey f.key x.name
  /-- What is in one folder stands in the order of its creation. -/
  ordered : ∀ f ∈ o.folders,
    ((o.childFolders f.key).Pairwise fun a b => a.createdAt < b.createdAt) ∧
      (o.childExpressions f.key).Pairwise fun a b => a.createdAt < b.createdAt
  /-- Folders are found from the root outwards, folder by folder. -/
  folders_eq : o.folders = root :: o.folders.flatMap fun f => o.childFolders f.key
  /-- Expressions are found folder by folder, in the order of the folders. -/
  expressions_eq : o.expressions = o.folders.flatMap fun f => o.childExpressions f.key
  /-- Of the items listed in a folder, those are there whose name no item before them has, up to
  case. -/
  first : ∀ f ∈ o.folders, ∃ items, t.list f.segments = .ok items ∧
    ∀ before i after, items = before ++ i :: after →
      (o.Shows f i ↔ ∀ j ∈ before, Text.lower j.name ≠ Text.lower i.name)
  /-- The path of a folder leads to it. -/
  folder_path : ∀ f ∈ o.folders, pathKey (Tree.path f.segments) = f.key ∧
    o.folder? (pathKey (Tree.path f.segments)) = some f
  /-- The path of an expression leads to it. -/
  expression_path : ∀ x ∈ o.expressions, pathKey x.path = x.key ∧ o.expression? (pathKey x.path) = some x

/-! ## Items and what is found of them -/

section Orderly

variable (h : t.Orderly)
include h

theorem list_eq {path : List String} (hlisted : t.IsListed (Tree.path path)) :
    t.list path = .ok (t.itemsAt (Tree.path path)) := by
  unfold Tree.list
  rw [h.lookup_eq hlisted]

/-- The items of a folder are in order already. -/
theorem itemsOf_eq (f : Folder) : itemsOf t f = t.itemsAt (Tree.path f.segments) := by
  by_cases hlisted : t.IsListed (Tree.path f.segments)
  · rw [itemsOf, list_eq h hlisted]
    refine List.mergeSort_of_pairwise ((h.ordered _).imp fun hlt => ?_)
    exact decide_eq_true (Int.le_of_lt hlt)
  · have hnone := Option.not_isSome_iff_eq_none.1 hlisted
    rw [itemsOf, Tree.list, Tree.itemsAt, hnone]
    rfl

/-- Every folder that is found can be listed. -/
theorem isListed_of_mem (hf : f ∈ (ofTree t).folders) : t.IsListed (Tree.path f.segments) := by
  rw [folders_ofTree] at hf
  obtain rfl | hf := List.mem_cons.1 hf
  · exact h.root
  · obtain ⟨p, hp, hf⟩ := List.mem_flatMap.1 hf
    obtain ⟨i, hi, hk, rfl⟩ := mem_foldersIn.1 hf
    have hmem := (firsts_sublist [] _).subset hi
    rw [itemsOf_eq h] at hmem
    have hlisted := h.folders _ i hmem hk
    rwa [joinPath_path (named_ofTree t p hp).names] at hlisted

theorem ordered_firsts (f : Folder) :
    (firsts [] (itemsOf t f)).Pairwise fun a b => a.createdAt < b.createdAt := by
  rw [itemsOf_eq h]
  exact (h.ordered _).sublist (firsts_sublist [] _)

theorem ordered_childFolders (hf : f ∈ (ofTree t).folders) :
    ((ofTree t).childFolders f.key).Pairwise fun a b => a.createdAt < b.createdAt := by
  rw [childFolders_ofTree hf, foldersIn, List.pairwise_map]
  exact (ordered_firsts h f).sublist List.filter_sublist

theorem ordered_childExpressions (hf : f ∈ (ofTree t).folders) :
    ((ofTree t).childExpressions f.key).Pairwise fun a b => a.createdAt < b.createdAt := by
  rw [childExpressions_ofTree hf, expressionsIn, List.pairwise_map]
  exact (ordered_firsts h f).sublist List.filter_sublist

/-- Items of one folder that were created at one time are the same. -/
theorem eq_of_createdAt {j : Tree.Item} (hi : i ∈ itemsOf t f) (hj : j ∈ itemsOf t f)
    (he : i.createdAt = j.createdAt) : i = j := by
  rw [itemsOf_eq h] at hi hj
  have hnodup : ((t.itemsAt (Tree.path f.segments)).map (·.createdAt)).Nodup :=
    List.pairwise_map.2 ((h.ordered _).imp fun hlt => Int.ne_of_lt hlt)
  exact List.inj_on_of_nodup_map hnodup hi hj he

/-- An item is there exactly if it is one of the first. -/
theorem shows_iff (hf : f ∈ (ofTree t).folders) (hi : i ∈ itemsOf t f) :
    (ofTree t).Shows f i ↔ i ∈ firsts [] (itemsOf t f) := by
  have hitem {j : Tree.Item} (hj : j ∈ firsts [] (itemsOf t f)) (he : j.createdAt = i.createdAt) :
      i ∈ firsts [] (itemsOf t f) := by
    rwa [← eq_of_createdAt h ((firsts_sublist [] _).subset hj) hi he]
  unfold Shows
  cases hk : i.kind with
  | folder =>
    have hchild : f.folder i ∈ (ofTree t).folders ↔ f.folder i ∈ foldersIn t f := by
      rw [← childFolders_ofTree hf, childFolders, List.mem_filter]
      exact (and_iff_left (beq_self_eq_true _)).symm
    simp only
    rw [hchild, mem_foldersIn]
    constructor
    · rintro ⟨j, hj, -, he⟩
      exact hitem hj (congrArg Folder.createdAt he)
    · exact fun hfirst => ⟨i, hfirst, hk, rfl⟩
  | expression =>
    have hchild : f.expression i ∈ (ofTree t).expressions ↔ f.expression i ∈ expressionsIn t f := by
      rw [← childExpressions_ofTree hf, childExpressions, List.mem_filter]
      exact (and_iff_left (beq_self_eq_true _)).symm
    simp only
    rw [hchild, mem_expressionsIn]
    constructor
    · rintro ⟨j, hj, -, he⟩
      exact hitem hj (congrArg Expression.createdAt he)
    · exact fun hfirst => ⟨i, hfirst, hk, rfl⟩

theorem shows_split_iff (hf : f ∈ (ofTree t).folders) {before after : List Tree.Item}
    (hsplit : itemsOf t f = before ++ i :: after) :
    (ofTree t).Shows f i ↔ ∀ j ∈ before, Text.lower j.name ≠ Text.lower i.name := by
  have hname (j : Tree.Item) (hj : j ∈ itemsOf t f) : isName j.name = true :=
    h.names _ j (itemsOf_eq h f ▸ hj)
  have hi : i ∈ itemsOf t f := hsplit ▸ List.mem_append_right _ List.mem_cons_self
  have hne (j : Tree.Item) (hj : j ∈ before) : i ≠ j := by
    have hordered := h.ordered (Tree.path f.segments)
    rw [← itemsOf_eq h, hsplit] at hordered
    have hlt := (List.pairwise_append.1 hordered).2.2 j hj i List.mem_cons_self
    rintro rfl
    exact Int.lt_irrefl _ hlt
  rw [shows_iff h hf hi, hsplit, mem_firsts_iff (hname i hi) hne]
  rw [and_iff_right List.not_mem_nil]
  refine forall₂_congr fun j hj => ?_
  exact forall_prop_of_true (hname j (hsplit ▸ List.mem_append_left _ hj))

end Orderly

/-! ## The index -/

theorem exists_item_of_mem {x : Expression} (hx : x ∈ (ofTree t).expressions) :
    ∃ f ∈ (ofTree t).folders, ∃ i : Tree.Item, isName i.name = true ∧ f.expression i = x := by
  rw [expressions_ofTree] at hx
  obtain ⟨f, hf, hx⟩ := List.mem_flatMap.1 hx
  obtain ⟨i, hi, -, rfl⟩ := mem_expressionsIn.1 hx
  exact ⟨f, hf, i, (isName_of_mem_firsts hi).1, rfl⟩

theorem pathKey_of_mem {x : Expression} (hx : x ∈ (ofTree t).expressions) : pathKey x.path = x.key := by
  obtain ⟨f, hf, i, hi, rfl⟩ := exists_item_of_mem hx
  exact ((named_ofTree t f hf).childKey hi).symm

theorem distinct_keys (t : Tree) :
    ((ofTree t).folders.map (·.key) ++ (ofTree t).expressions.map (·.key)).Nodup := by
  have hw := wellFormed_ofTree t
  refine List.nodup_append.2 ⟨distinct_ofTree t, hw.distinct, fun key hkey key' hkey' he => ?_⟩
  obtain ⟨f, hf, rfl⟩ := List.mem_map.1 hkey
  obtain ⟨x, hx, rfl⟩ := List.mem_map.1 hkey'
  exact hw.apart x hx f hf he.symm

theorem folder?_of_mem (hf : f ∈ (ofTree t).folders) : (ofTree t).folder? f.key = some f := by
  cases hfind : (ofTree t).folder? f.key with
  | none => exact absurd rfl (folder?_eq_none.1 hfind f hf)
  | some g =>
    have hg : g ∈ (ofTree t).folders := List.mem_of_find?_eq_some hfind
    have hkey : g.key = f.key := by simpa using List.find?_some hfind
    rw [List.inj_on_of_nodup_map (distinct_ofTree t) hg hf hkey]

theorem isIndex_ofTree (h : t.Orderly) : IsIndex t (ofTree t) where
  distinct := distinct_keys t
  folder_parent g hg := by
    rw [folders_ofTree] at hg
    obtain hg | hg := List.mem_cons.1 hg
    · exact .inl hg
    · obtain ⟨f, hf, hg⟩ := List.mem_flatMap.1 hg
      obtain ⟨i, -, -, rfl⟩ := mem_foldersIn.1 hg
      exact .inr ⟨f, hf, rfl, rfl⟩
  expression_parent x hx := by
    obtain ⟨f, hf, i, -, rfl⟩ := exists_item_of_mem hx
    exact ⟨f, hf, rfl, rfl⟩
  ordered f hf := ⟨ordered_childFolders h hf, ordered_childExpressions h hf⟩
  folders_eq := by
    conv_lhs => rw [folders_ofTree]
    exact congrArg (root :: ·) (List.flatMap_congr fun f hf => (childFolders_ofTree hf).symm)
  expressions_eq := by
    conv_lhs => rw [expressions_ofTree]
    exact List.flatMap_congr fun f hf => (childExpressions_ofTree hf).symm
  first f hf := by
    have hlist := list_eq h (isListed_of_mem h hf)
    refine ⟨_, hlist, fun before i after hsplit => ?_⟩
    rw [← itemsOf_eq h] at hsplit
    exact shows_split_iff h hf hsplit
  folder_path f hf := by
    have hkey := (named_ofTree t f hf).key.symm
    exact ⟨hkey, by rw [hkey]; exact folder?_of_mem hf⟩
  expression_path x hx := by
    have hkey := pathKey_of_mem hx
    exact ⟨hkey, by rw [hkey]; exact (wellFormed_ofTree t).find hx⟩

/-- Whatever folders and expressions are added, and in whatever order, finding what there is comes to
an end, and what is found is an index of it. -/
theorem isIndex_built (calls : List Tree.Call) :
    Crawls (Tree.built calls) 0 ⟨[root], []⟩ (ofTree (Tree.built calls)) ∧
      IsIndex (Tree.built calls) (ofTree (Tree.built calls)) :=
  ⟨crawls_ofTree _, isIndex_ofTree (Tree.orderly_built calls)⟩

/-- An expression in a folder, and then one that is in none. -/
def inAndOut : List Tree.Call :=
  [.expression "d/c" .formula "1", .expression "a" .formula "2"]

theorem built_inAndOut : Tree.built inAndOut =
    ⟨[("", some [⟨.folder, "d", 1, none⟩, ⟨.expression, "a", 3, some .formula⟩]),
      ("d", some [⟨.expression, "c", 2, some .formula⟩])],
      [("d/c", some "1"), ("a", some "2")], 3⟩ := by
  have hin : pathParts "d/c" = ["d", "c"] :=
    pathParts_path (by decide : ∀ n ∈ ["d", "c"], isName n = true)
  have hout : pathParts "a" = ["a"] := pathParts_path (List.forall_mem_singleton.2 (by decide))
  have hfolder : pathParts (Tree.path ["d"]) = ["d"] := pathParts_path (by decide)
  have hroot : pathParts (Tree.path []) = [] := pathParts_path fun _ h => absurd h List.not_mem_nil
  unfold Tree.built inAndOut
  simp only [List.foldl, Tree.Call.on, Tree.addExpression, hin, hout, List.getLast?, List.getLast,
    List.dropLast, Tree.addFolder, hfolder, hroot]
  rfl

theorem ofTree_inAndOut : ofTree (Tree.built inAndOut) =
    ⟨[root, ⟨"d", "d", ["d"], 1, some ""⟩], [⟨"a", "a", ["a"], .formula, 3, ""⟩,
      ⟨"d/c", "c", ["d", "c"], .formula, 2, "d"⟩]⟩ := by
  rw [built_inAndOut]
  exact (ofTree_of_folder rfl (by decide) rfl rfl (by decide) rfl).trans rfl

/-- The expressions of all folders are not in the order of their creation. -/
theorem not_in_order_of_creation : ¬ ∀ calls : List Tree.Call,
    (ofTree (Tree.built calls)).expressions.Pairwise fun x y => x.createdAt < y.createdAt := by
  intro h
  have hordered := h inAndOut
  rw [ofTree_inAndOut] at hordered
  exact absurd ((List.pairwise_cons.1 hordered).1 _ List.mem_cons_self) (by decide)

end Outline
end Workbook
