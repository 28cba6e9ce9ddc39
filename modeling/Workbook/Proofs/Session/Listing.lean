/-
The mapping of a folder, whenever it is asked for.

A session makes the mapping of a folder when it is first asked for and keeps it until its time is set.
Adding an entry to a mapping does nothing if its key is there already, in whatever spelling; but no two
things in one folder have such names, since an outline has everything in it under one key
(`Outline.nodup_names`).  So the mapping has one entry for each expression and each folder, in their
order, and any spelling of a name finds the entry of what has the name; neither making the mapping nor
finding it executes anything (`folderValue_displays`).

Of what sessions keep, `Register` records what each lazy entry was made for.  Everything that is done
with sessions agrees with a register that grows.
-/
import Mathlib
import Workbook.Proofs.Mapping
import Workbook.Proofs.Outline.Index
import Workbook.Proofs.Session.Folder
import Workbook.Proofs.Session.Origin

open List (Forall₂)

namespace Workbook

/-! ## Entries under distinct names -/

namespace Entries

/-- Works under distinct names have an entry each, in their order. -/
theorem lazyFrom_eq {n : Nat} {out : Entries} {ws : List (String × Work)}
    (distinct : (out.forms ++ ws.map fun w => Text.lower w.1).Nodup) :
    lazyFrom n out ws = out ++ (ws.zipIdx n).map fun p => (p.1.1, Slot.lazy p.2) := by
  induction ws generalizing n out with
  | nil => exact (List.append_nil out).symm
  | cons w ws ih =>
    rw [List.map_cons] at distinct
    have hnew : Text.lower w.1 ∉ out.forms := fun hmem =>
      (List.nodup_append.1 distinct).2.2 _ hmem _ List.mem_cons_self rfl
    have hrest : (forms (out ++ [(w.1, Slot.lazy n)]) ++ ws.map fun w => Text.lower w.1).Nodup := by
      rwa [forms_append_singleton, List.append_assoc, List.singleton_append]
    rw [lazyFrom, insert_of_not_mem hnew, ih hrest, List.append_assoc, List.zipIdx_cons,
      List.map_cons, List.singleton_append]

/-- Where names are distinct, any spelling of a name finds its entry. -/
theorem find?_of_mem {entries : Entries} (distinct : entries.forms.Nodup) {key name : String}
    {slot : Slot} (h : (key, slot) ∈ entries) (hname : Text.lower name = Text.lower key) :
    entries.find? name = some slot := by
  cases hfind : entries.find? name with
  | none =>
    have hmem : Text.lower key ∈ entries.forms := List.mem_map.2 ⟨(key, slot), h, rfl⟩
    exact absurd (hname ▸ hmem) (find?_eq_none_iff.1 hfind)
  | some slot' =>
    have hunder := under_of_find? hfind
    rw [hname] at hunder
    rw [hunder.unique distinct (under_of_mem h)]

end Entries

/-! ## Names in a folder -/

namespace Outline

variable {t : Tree} {f : Folder}

/-- No two things in one folder have names that agree up to case. -/
theorem nodup_names (t : Tree) (key : String) :
    (((ofTree t).childExpressions key).map (fun x => Text.lower x.name) ++
      ((ofTree t).childFolders key).map fun f => Text.lower f.name).Nodup := by
  have hw := wellFormed_ofTree t
  have hkeys : (((ofTree t).childExpressions key).map (·.key) ++
      ((ofTree t).childFolders key).map (·.key)).Nodup := by
    have hall := List.nodup_append_comm.1 (distinct_keys t)
    exact hall.sublist ((List.filter_sublist.map _).append (List.filter_sublist.map _))
  have hexpressions : ((ofTree t).childExpressions key).map (·.key) =
      (((ofTree t).childExpressions key).map fun x => Text.lower x.name).map (joinPath key) := by
    rw [List.map_map]
    refine List.map_congr_left fun x hx => ?_
    obtain ⟨hx, hparent⟩ := List.mem_filter.1 hx
    rw [hw.expressionKey x hx, eq_of_beq hparent]
    rfl
  have hfolders : ((ofTree t).childFolders key).map (·.key) =
      (((ofTree t).childFolders key).map fun f => Text.lower f.name).map (joinPath key) := by
    rw [List.map_map]
    refine List.map_congr_left fun f hf => ?_
    obtain ⟨hf, hparent⟩ := List.mem_filter.1 hf
    exact hw.folderKey f hf key (eq_of_beq hparent)
  rw [hexpressions, hfolders, ← List.map_append] at hkeys
  exact hkeys.of_map _

/-- A folder has no expression that stands for it if none in it has a name that would. -/
theorem expression?_eq_none_of_ordinary (hf : f ∈ (ofTree t).folders)
    (ordinary : ∀ x ∈ (ofTree t).childExpressions f.key, Text.lower x.name ∉ Engine.sentinels)
    {name : String} (hname : name ∈ Engine.sentinels) :
    (ofTree t).expression? (childKey f.key name) = none := by
  have hlower : isName name = true ∧ Text.lower name = name := by
    rcases List.mem_pair.1 hname with rfl | rfl <;> decide
  refine expression?_eq_none.2 fun x hx hkey => ?_
  obtain ⟨g, hg, i, hi, rfl⟩ := exists_item_of_mem hx
  by_cases hsame : g.key = f.key
  · have hchild : g.expression i ∈ (ofTree t).childExpressions f.key :=
      List.mem_filter.2 ⟨hx, beq_iff_eq.2 hsame⟩
    have hi : childKey f.key i.name = childKey f.key name := hsame ▸ hkey
    refine ordinary _ hchild ?_
    show Text.lower i.name ∈ Engine.sentinels
    rw [childKey_inj hi, hlower.2]
    exact hname
  · exact (named_ofTree t g hg).childKey_ne (named_ofTree t f hf) hi hlower.1 hsame hkey

/-- Where no expression stands for a folder, its members are all that is in it. -/
theorem members_eq (o : Outline) (place : Nat) {key : String}
    (ordinary : ∀ x ∈ o.childExpressions key, Text.lower x.name ∉ Engine.sentinels) :
    o.members place key =
      (o.childExpressions key).map (fun x => (x.name, Work.expression place x.key)) ++
        (o.childFolders key).map fun f => (f.name, Work.folder place f.key) := by
  have hall : (o.childExpressions key).filter
      (fun x => !Engine.sentinels.contains (Text.lower x.name)) = o.childExpressions key :=
    List.filter_eq_self.2 fun x hx => by simpa using ordinary x hx
  unfold members
  rw [hall]

end Outline

/-! ## What a mapping displays -/

/-- A lazy entry whose value comes from a work, when it is first read. -/
def Store.Defers (s : Store) (thunk : Nat) (work : Work) : Prop :=
  s.thunks[thunk]? = some (.pending work) ∨ ∃ v, s.thunks[thunk]? = some (.done v)

/-- The entries of a mapping that has an entry for each thing in a folder. -/
structure Outline.Displays (o : Outline) (place : Nat) (key : String) (es : Entries) (s : Store) :
    Prop where
  /-- There are entries for the expressions and then for the folders, in their order. -/
  names : es.map (·.1) = (o.childExpressions key).map (·.name) ++ (o.childFolders key).map (·.name)
  /-- No two of them share an entry. -/
  apart : (es.map (·.2)).Nodup
  /-- Any spelling of an expression's name finds the entry of the expression. -/
  expression : ∀ (i : Nat) (x : Expression), (o.childExpressions key)[i]? = some x →
    ∃ thunk, es[i]? = some (x.name, .lazy thunk) ∧ s.Defers thunk (.expression place x.key) ∧
      ∀ name, Text.lower name = Text.lower x.name → es.find? name = some (.lazy thunk)
  /-- Any spelling of a folder's name finds the entry of the folder. -/
  folder : ∀ (i : Nat) (f : Folder), (o.childFolders key)[i]? = some f →
    ∃ thunk, es[(o.childExpressions key).length + i]? = some (f.name, .lazy thunk) ∧
      s.Defers thunk (.folder place f.key) ∧
      ∀ name, Text.lower name = Text.lower f.name → es.find? name = some (.lazy thunk)

/-- The entries of a folder display it. -/
theorem Outline.Lists.displays {t : Tree} {place : Nat} {key : String} {es : Entries} {s : Store}
    (h : (ofTree t).Lists place key s.Defers es)
    (ordinary : ∀ x ∈ (ofTree t).childExpressions key, Text.lower x.name ∉ Engine.sentinels) :
    (ofTree t).Displays place key es s := by
  obtain ⟨n, rfl, hmade⟩ := h
  have hmembers := (ofTree t).members_eq place ordinary
  have hnames : ((ofTree t).members place key).map (fun w => Text.lower w.1) =
      ((ofTree t).childExpressions key).map (fun x => Text.lower x.name) ++
        ((ofTree t).childFolders key).map fun f => Text.lower f.name := by
    rw [hmembers, List.map_append, List.map_map, List.map_map]
    rfl
  have hlisting : (ofTree t).listing place key n =
      (((ofTree t).members place key).zipIdx n).map fun p => (p.1.1, .lazy p.2) := by
    refine Entries.lazyFrom_eq ?_
    rw [hnames]
    exact nodup_names t key
  have hkeys : ((ofTree t).listing place key n).map (·.1) =
      ((ofTree t).members place key).map (·.1) := by
    rw [hlisting, List.map_map]
    conv_rhs => rw [← List.zipIdx_map_fst n ((ofTree t).members place key), List.map_map]
    rfl
  have distinct : ((ofTree t).listing place key n).forms.Nodup := by
    have hforms : ((ofTree t).listing place key n).forms =
        (((ofTree t).listing place key n).map (·.1)).map Text.lower := by
      rw [List.map_map]
      rfl
    rw [hforms, hkeys, List.map_map]
    exact hnames ▸ nodup_names t key
  have hentry (i : Nat) (w : String × Work) (hw : ((ofTree t).members place key)[i]? = some w) :
      ((ofTree t).listing place key n)[i]? = some (w.1, .lazy (n + i)) := by
    rw [hlisting, List.getElem?_map, List.getElem?_zipIdx, hw]
    rfl
  have hfound (i : Nat) (w : String × Work) (hw : ((ofTree t).members place key)[i]? = some w) :
      ∃ thunk, ((ofTree t).listing place key n)[i]? = some (w.1, .lazy thunk) ∧
        s.Defers thunk w.2 ∧ ∀ name, Text.lower name = Text.lower w.1 →
          ((ofTree t).listing place key n).find? name = some (.lazy thunk) :=
    ⟨n + i, hentry i w hw, hmade i w hw,
      fun name => Entries.find?_of_mem distinct (List.mem_of_getElem? (hentry i w hw))⟩
  refine ⟨?_, ?_, fun i x hx => hfound i (x.name, .expression place x.key) ?_,
    fun i f hf => hfound _ (f.name, .folder place f.key) ?_⟩
  · rw [hkeys, hmembers, List.map_append, List.map_map, List.map_map]
    rfl
  · have hslots : ((ofTree t).listing place key n).map (·.2) =
        (List.range' n ((ofTree t).members place key).length).map Slot.lazy := by
      rw [hlisting, List.map_map, ← List.zipIdx_map_snd, List.map_map]
      rfl
    rw [hslots]
    exact (List.nodup_range' ..).map fun _ _ h => Slot.lazy.inj h
  · rw [hmembers, List.getElem?_append_left, List.getElem?_map, hx]
    · rfl
    · rw [List.length_map]
      exact (List.getElem?_eq_some_iff.1 hx).1
  · rw [hmembers, List.getElem?_append_right, List.length_map, Nat.add_sub_cancel_left,
      List.getElem?_map, hf]
    · rfl
    · rw [List.length_map]
      exact Nat.le_add_right _ _

/-! ## What lazy entries are made for -/

/-- What lazy entries were made for, by their places, and the outlines of sessions, by theirs. -/
structure Register where
  works : List Work
  outlines : List Outline

namespace Register

/-- What a lazy entry was made for. -/
def Made (w : Register) (thunk : Nat) (work : Work) : Prop :=
  w.works[thunk]? = some work

structure Le (w w' : Register) : Prop where
  works : w.works <+: w'.works
  outlines : w.outlines <+: w'.outlines

theorem Le.refl (w : Register) : w.Le w :=
  ⟨List.prefix_refl _, List.prefix_refl _⟩

theorem Le.trans {u v w : Register} (h : u.Le v) (h' : v.Le w) : u.Le w :=
  ⟨h.works.trans h'.works, h.outlines.trans h'.outlines⟩

theorem Made.mono {w w' : Register} {thunk : Nat} {work : Work} (h : w.Le w')
    (hm : w.Made thunk work) : w'.Made thunk work :=
  getElem?_of_prefix h.works hm

/-- The register with a lazy entry more. -/
def addWork (w : Register) (work : Work) : Register :=
  { w with works := w.works ++ [work] }

theorem le_addWork (w : Register) (work : Work) : w.Le (w.addWork work) :=
  ⟨List.prefix_append _ _, List.prefix_refl _⟩

/-- The register with a session more. -/
def addOutline (w : Register) (o : Outline) : Register :=
  { w with outlines := w.outlines ++ [o] }

theorem le_addOutline (w : Register) (o : Outline) : w.Le (w.addOutline o) :=
  ⟨List.prefix_refl _, List.prefix_append _ _⟩

/-- A session agrees with a register: the mappings of folders that it keeps are those of its
outline. -/
structure Agrees (w : Register) (place : Nat) (σ : Session) : Prop where
  registered : w.outlines[place]? = some σ.outline
  outline : σ.outline = .ofTree σ.tree
  folders : ∀ key v, (key, v) ∈ σ.folderValues →
    ∃ es, v = .ofEntries es ∧ σ.outline.Lists place key w.Made es

/-- A store agrees with a register. -/
structure Holds (w : Register) (s : Store) : Prop where
  thunks : s.thunks.size = w.works.length
  pending : ∀ (t : Nat) (work : Work), s.thunks[t]? = some (.pending work) → w.Made t work
  places : s.sessions.size = w.outlines.length
  sessions : ∀ (place : Nat) (σ : Session), s.sessions[place]? = some σ → w.Agrees place σ

variable {w w' : Register} {s s' : Store} {place : Nat} {σ : Session}

theorem Agrees.mono (h : w.Le w') (hσ : w.Agrees place σ) : w'.Agrees place σ where
  registered := getElem?_of_prefix h.outlines hσ.registered
  outline := hσ.outline
  folders key v hv := by
    obtain ⟨es, rfl, hes⟩ := hσ.folders key v hv
    exact ⟨es, rfl, hes.imp fun _ _ => Made.mono h⟩

namespace Holds

variable (h : w.Holds s)
include h

/-- An entry that was made for a work comes from it. -/
theorem defers {t : Nat} {work : Work} (hm : w.Made t work) : s.Defers t work := by
  have hlt : t < s.thunks.size := h.thunks ▸ (List.getElem?_eq_some_iff.1 hm).1
  have ht : s.thunks[t]? = some s.thunks[t] := Array.getElem?_eq_getElem hlt
  cases hthunk : s.thunks[t] with
  | pending other =>
    rw [hthunk] at ht
    have hother : some other = some work := (h.pending t other ht).symm.trans hm
    obtain rfl := Option.some.inj hother
    exact .inl ht
  | done v => exact .inr ⟨v, hthunk ▸ ht⟩

theorem unchanged (thunks : s'.thunks = s.thunks) (sessions : s'.sessions = s.sessions) :
    w.Holds s' where
  thunks := thunks ▸ h.thunks
  pending t work ht := h.pending t work (thunks ▸ ht)
  places := sessions ▸ h.places
  sessions place σ hσ := h.sessions place σ (sessions ▸ hσ)

theorem changeSession {f : Session → Session} (hf : ∀ σ, w.Agrees place σ → w.Agrees place (f σ)) :
    w.Holds (s.changeSession place f) where
  thunks := h.thunks
  pending := h.pending
  places := (Array.size_modify ..).trans h.places
  sessions n τ hτ := by
    rw [Store.getElem?_changeSession] at hτ
    split at hτ
    · rename_i hn
      subst hn
      obtain ⟨σ, hσ, rfl⟩ := Option.map_eq_some_iff.1 hτ
      exact hf σ (h.sessions _ σ hσ)
    · exact h.sessions n τ hτ

/-- A change of a session that leaves its outline and the mappings of its folders alone. -/
theorem changeElse {f : Session → Session} (outline : ∀ σ, (f σ).outline = σ.outline)
    (tree : ∀ σ, (f σ).tree = σ.tree)
    (folderValues : ∀ σ, ∀ e ∈ (f σ).folderValues, e ∈ σ.folderValues) :
    w.Holds (s.changeSession place f) :=
  h.changeSession fun σ hσ =>
    { registered := (outline σ).symm ▸ hσ.registered
      outline := by rw [outline, tree, hσ.outline]
      folders := fun key v hv => (outline σ).symm ▸ hσ.folders key v (folderValues σ _ hv) }

theorem addThunk (work : Work) : (w.addWork work).Holds (s.addThunk work) := by
  have hle := w.le_addWork work
  refine ⟨?_, fun t other ht => ?_, h.places, fun place σ hσ => (h.sessions place σ hσ).mono hle⟩
  · simp [Store.addThunk, addWork, h.thunks]
  · rw [Store.addThunk, Array.getElem?_push] at ht
    split at ht
    · rename_i hsize
      cases ht
      simp [Made, addWork, hsize, h.thunks]
    · exact (h.pending t other ht).mono hle

theorem settle (t : Nat) (v : Value) : w.Holds (s.settle t v) where
  thunks := by simpa [Store.settle] using h.thunks
  pending t' work ht := by
    rw [Store.settle, Array.set!_eq_setIfInBounds, Array.getElem?_setIfInBounds] at ht
    split at ht
    · split at ht <;> cases ht
    · exact h.pending t' work ht
  places := h.places
  sessions := h.sessions

theorem addSession (hσ : σ.Begun) : (w.addOutline σ.outline).Holds (s.addSession σ) := by
  have hle := w.le_addOutline σ.outline
  refine ⟨h.thunks, h.pending, ?_, fun place τ hτ => ?_⟩
  · simp [Store.addSession, addOutline, h.places]
  · rw [Store.addSession, Array.getElem?_push] at hτ
    split at hτ
    · rename_i hsize
      cases hτ
      refine ⟨by simp [addOutline, hsize, h.places], hσ.outline, fun key v hv => ?_⟩
      rw [hσ.folderValues] at hv
      cases hv
    · exact (h.sessions place τ hτ).mono hle

end Holds

/-- The custody of a register. -/
def custody : Custody where
  toCoupling := .ofInvariant Le .refl .trans Holds fun h ho => h.unchanged ho.thunks ho.sessions
  same h := h.1
  narrow _ := .refl _
  thunks _ _ := rfl
  sessions _ _ := rfl
  Made := Made
  Settles _ _ _ _ := True
  Outlined w place o := w.outlines[place]? = some o
  Fixed _ _ := True
  Inner _ _ := True
  made_mono h := Made.mono h
  outlined_mono h ho := getElem?_of_prefix h.outlines ho
  inner_mono _ _ := trivial
  fixed_mono _ _ := trivial
  pending hi := hi.2.pending _ _
  value _ := Value.alike_self _
  done _ _ := Value.alike_self _
  valid _ _ := Session.valid_self _
  outlined hi hσ := (hi.2.sessions _ _ hσ).registered
  gone _ _ _ := trivial
  newThunk work _ hi :=
    ⟨_, le_addWork _ work, ⟨rfl, hi.2.addThunk work⟩, by simp [Made, addWork, hi.2.thunks]⟩
  settle hi _ _ _ := ⟨rfl, hi.2.settle _ _⟩
  scripts _ hi := ⟨rfl, hi.2.changeElse (fun _ => rfl) (fun _ => rfl) fun _ _ => id⟩
  keepFolder := by
    rintro w s place key o es ⟨-, hi⟩ ho hes
    refine ⟨rfl, hi.changeSession fun σ hσ => { hσ with folders := fun key' v hv => ?_ }⟩
    obtain rfl : o = σ.outline := Option.some.inj (ho.symm.trans hσ.registered)
    obtain hv | hv := List.mem_cons.1 hv
    · cases hv
      exact ⟨es, rfl, hes⟩
    · exact hσ.folders key' v hv
  keepImport hi _ _ _ := ⟨rfl, hi.2.changeElse (fun _ => rfl) (fun _ => rfl) fun _ _ => id⟩
  newSession hi _ hbegun := ⟨_, le_addOutline _ _, ⟨rfl, hi.2.addSession hbegun⟩, trivial⟩
  release hi _ := ⟨rfl, hi.2.changeElse (fun _ => rfl) (fun _ => rfl) fun _ _ => id⟩
  changeModules _ hi := ⟨rfl, hi.2.unchanged rfl rfl⟩
  fix {w s n} hi _ :=
    have ho := s.ordinary_freeze n
    ⟨w, .refl w, ⟨rfl, hi.2.unchanged ho.thunks ho.sessions⟩, trivial⟩

theorem custody_lenient (place : Nat) : custody.Lenient place where
  note _ _ hi := ⟨rfl, hi.2.changeElse (fun _ => rfl) (fun _ => rfl) fun _ _ => id⟩
  record hi _ _ := ⟨rfl, hi.2.changeElse (fun _ => rfl) (fun _ => rfl) fun _ _ => id⟩
  settles _ _ _ := trivial

/-- Every engine agrees with a register. -/
theorem custody_serves (fuel : Nat) : custody.Serves (Engine.ofFuel fuel) :=
  custody.serves (fun _ he _ place => (custody_lenient place).evaluate he) fuel

end Register

/-! ## Everything that is done -/

/-- A store that agrees with some register. -/
def Store.Registered (s : Store) : Prop :=
  ∃ w : Register, w.Holds s

namespace Store

variable {s t : Store}

theorem registered_empty : empty.Registered :=
  ⟨⟨[], []⟩, rfl, fun _ _ h => (nomatch h), rfl, fun _ _ h => (nomatch h)⟩

theorem upheld_registered : Upheld Registered where
  changeModules hs _ _ := hs.imp fun _ h => h.unchanged rfl rfl
  release hs _ := hs.imp fun _ h => h.changeElse (fun _ => rfl) (fun _ => rfl) fun _ _ => id
  forgetting hs _ _ := hs.imp fun _ h =>
    h.changeElse (fun _ => rfl) (fun _ => rfl) fun _ _ he => absurd he List.not_mem_nil

/-- What is offered agrees with a register. -/
theorem Registered.offered {fuel : Nat} {α : Type} {y : Run α} (h : s.Registered)
    (offers : (Engine.ofFuel fuel).Offers s y) (ends : y.EndsIn s t) : t.Registered := by
  obtain ⟨w, h⟩ := h
  have he := Register.custody_serves fuel
  have hkeeps : Register.custody.Keeps w y fun _ _ => True :=
    he.offered (fun _ hi => ⟨rfl, hi.2.unchanged rfl rfl⟩)
      (fun place key => (Register.custody_lenient place).evaluate he key) (bound_within_same s) offers
  obtain ⟨w', -, hi⟩ := hkeeps.endsIn ⟨rfl, h⟩ ends
  exact ⟨w', hi.2⟩

/-- Whatever is done, lazy entries come from what they were made for. -/
theorem registered_of_comes {fuel : Nat} (hs : s.Registered) (h : (Engine.ofFuel fuel).Comes s t) :
    t.Registered :=
  h.upheld upheld_registered Registered.offered hs

end Store

/-! ## The value of a folder -/

/-- Whatever has been done before, the value of a folder without an expression that stands for it is a
mapping that has one entry for each thing in it, under its name in any spelling, and to have it executes
nothing. -/
theorem folderValue_displays {fuel fuel' : Nat} {s : Store} {place : Nat} {σ : Session}
    {f : Outline.Folder} (history : (Engine.ofFuel fuel).Comes .empty s)
    (hσ : s.sessions[place]? = some σ) (hf : f ∈ σ.outline.folders)
    (ordinary : ∀ x ∈ σ.outline.childExpressions f.key, Text.lower x.name ∉ Engine.sentinels) :
    ∃ es s', (Engine.ofFuel (fuel' + 1)).folderValue place f.key s = .ok (.ofEntries es) s' ∧
      (∀ other, s'.begun other = s.begun other) ∧ σ.outline.Displays place f.key es s' := by
  obtain ⟨w, hw⟩ := Store.registered_of_comes Store.registered_empty history
  have hag := hw.sessions place σ hσ
  have houtline := hag.outline
  rw [houtline] at hf ordinary
  have folder : (σ.outline.folder? f.key).isSome := by
    rw [houtline, Outline.folder?_of_mem hf]
    rfl
  have absent : ∀ name ∈ Engine.sentinels, σ.outline.expression? (childKey f.key name) = none := by
    rw [houtline]
    exact fun name => Outline.expression?_eq_none_of_ordinary hf ordinary
  cases hkept : σ.folderValues.lookup f.key with
  | none =>
    refine ⟨_, _, Engine.folderValue_run hσ ⟨folder, absent, hkept⟩,
      s.begun_listed place σ.outline f.key, ?_⟩
    rw [houtline]
    refine Outline.Lists.displays ⟨s.thunks.size, rfl, fun i v hv => .inl ?_⟩ ordinary
    show (s.postponing ((Outline.ofTree σ.tree).members place f.key)).thunks[_]? = _
    rw [s.getElem?_postponing, hv]
    rfl
  | some v =>
    obtain ⟨es, rfl, hlists⟩ := hag.folders _ _ (Keyed.mem_of_lookup hkept)
    refine ⟨es, s, Engine.folderValue_kept hσ folder absent hkept, fun _ => rfl, ?_⟩
    rw [houtline] at hlists ⊢
    exact (hlists.imp fun _ _ => hw.defers).displays ordinary

/-- The root of the workbook that has the expression `r` and the folder `f`. -/
theorem folderValue_displays_root :
    ∃ es s', (Engine.ofFuel 1).folderValue 0 "" folderReaderStore = .ok (.ofEntries es) s' ∧
      (∀ other, s'.begun other = folderReaderStore.begun other) ∧
      (Outline.ofTree (folderReader .formula "f.b")).Displays 0 "" es s' := by
  have houtline := ofTree_folderReader .formula "f.b"
  refine folderValue_displays (f := Outline.root)
    ((Engine.ofFuel 0).comes_opened .empty (folderReader .formula "f.b") ⟨.standard, [], []⟩ 0 .nil)
    (Store.session_opened Store.empty (folderReader .formula "f.b") ⟨.standard, [], []⟩ 0) ?_ ?_
  · show Outline.root ∈ (Outline.ofTree (folderReader .formula "f.b")).folders
    rw [houtline]
    exact List.mem_cons_self
  · show ∀ x ∈ (Outline.ofTree (folderReader .formula "f.b")).childExpressions "", _
    rw [houtline]
    decide

end Workbook
