/-
Mappings as association lists.

The entries of a mapping stand in a table under the forms of their keys, in which spelling does not
count (`Entries.table`).  Every call on a mapping does to the table what it would do to an
association list, and answers the same (`Mapping.run_eq_look`); lazy entries are computed by
programs that may read the mapping while it is being read.  Of `Text.lower`, which makes the forms,
nothing is used but that it is a function.
-/
import Mathlib.Data.List.Nodup
import Workbook.Proofs.Lazy
import Workbook.Proofs.Snapshot
import Workbook.Session.Evaluation

namespace Workbook

/-! ## Tables -/

/-- Entries, each under the form of its key. -/
abbrev Table := List (String × (String × Slot))

namespace Entries

variable {entries : Entries} {key form : String} {slot slot' : Slot}

/-- The forms of the keys. -/
def forms (entries : Entries) : List String :=
  entries.map fun e => Text.lower e.1

/-- The entries under the forms of their keys. -/
def table (entries : Entries) : Table :=
  entries.map fun e => (Text.lower e.1, e)

theorem find?_eq_lookup (entries : Entries) (key : String) :
    entries.find? key = (entries.table.lookup (Text.lower key)).map (·.2) := by
  unfold find?
  induction entries with
  | nil => rfl
  | cons e entries ih =>
    simp only [List.find?_cons, table, List.map_cons, List.lookup_cons,
      BEq.comm (a := Text.lower key)]
    cases Text.lower e.1 == Text.lower key with
    | true => rfl
    | false => exact ih

theorem has_iff_mem_forms : entries.has key ↔ Text.lower key ∈ entries.forms := by
  rw [has_iff, forms, List.mem_map]

theorem has_eq_isSome (entries : Entries) (key : String) :
    entries.has key = (entries.table.lookup (Text.lower key)).isSome := by
  rw [has, find?_eq_lookup, Option.isSome_map]

/-- Adding an entry, to the table. -/
theorem table_insert (entries : Entries) (key : String) (slot : Slot) :
    (entries.insert key slot).table =
      if entries.has key then entries.table
      else entries.table ++ [(Text.lower key, (key, slot))] := by
  unfold insert insert?
  split
  · rfl
  · simp [table]

/-- Setting an entry, in the table. -/
theorem table_set (entries : Entries) (key : String) (slot : Slot) :
    (set key slot entries).table = Keyed.put (Text.lower key) (key, slot) entries.table := by
  induction entries with
  | nil => rfl
  | cons e entries ih =>
    show table (if sameKey e.1 key then (key, slot) :: entries else e :: set key slot entries) =
      if Text.lower e.1 = Text.lower key then _ else _
    unfold sameKey
    by_cases hkey : Text.lower e.1 = Text.lower key
    · rw [if_pos (beq_iff_eq.2 hkey), if_pos hkey, hkey]
      rfl
    · rw [if_neg (mt beq_iff_eq.1 hkey), if_neg hkey]
      exact congrArg (_ :: ·) ih

theorem map_table_snd (entries : Entries) : entries.table.map (·.2) = entries := by
  rw [table, List.map_map]
  exact List.map_id entries

/-! ### Entries under their forms -/

/-- The entry under a form. -/
def Under (entries : Entries) (form : String) (slot : Slot) : Prop :=
  ∃ key, (key, slot) ∈ entries ∧ Text.lower key = form

theorem under_of_mem (h : (key, slot) ∈ entries) : entries.Under (Text.lower key) slot :=
  ⟨key, h, rfl⟩

theorem exists_under (h : form ∈ entries.forms) : ∃ slot, entries.Under form slot := by
  obtain ⟨e, he, rfl⟩ := List.mem_map.1 h
  exact ⟨e.2, e.1, he, rfl⟩

theorem Under.mem_forms (h : entries.Under form slot) : form ∈ entries.forms := by
  obtain ⟨key, hmem, rfl⟩ := h
  exact List.mem_map.2 ⟨_, hmem, rfl⟩

theorem Under.unique (distinct : entries.forms.Nodup) (h : entries.Under form slot)
    (h' : entries.Under form slot') : slot = slot' := by
  obtain ⟨key, hmem, hform⟩ := h
  obtain ⟨key', hmem', hform'⟩ := h'
  exact congrArg Prod.snd (List.inj_on_of_nodup_map distinct hmem hmem' (hform.trans hform'.symm))

theorem under_of_find? (h : entries.find? key = some slot) :
    entries.Under (Text.lower key) slot := by
  unfold find? at h
  obtain ⟨e, he, rfl⟩ := Option.map_eq_some_iff.1 h
  exact ⟨e.1, List.mem_of_find?_eq_some he, by simpa using List.find?_some he⟩

theorem find?_eq_none_iff : entries.find? key = none ↔ Text.lower key ∉ entries.forms := by
  rw [← has_iff_mem_forms, has, Option.not_isSome_iff_eq_none]

theorem insert_of_mem (h : Text.lower key ∈ entries.forms) : entries.insert key slot = entries := by
  unfold insert insert?
  rw [if_pos (has_iff_mem_forms.2 h)]
  rfl

theorem insert_of_not_mem (h : Text.lower key ∉ entries.forms) :
    entries.insert key slot = entries ++ [(key, slot)] := by
  unfold insert insert?
  rw [if_neg (mt has_iff_mem_forms.1 h)]
  rfl

theorem set_of_not_mem (h : Text.lower key ∉ entries.forms) :
    set key slot entries = entries ++ [(key, slot)] := by
  induction entries with
  | nil => rfl
  | cons e entries ih =>
    obtain ⟨hne, hrest⟩ := not_or.1 (mt List.mem_cons.2 h)
    have hsame : ¬ sameKey e.1 key = true := fun hsame => hne (beq_iff_eq.1 hsame).symm
    unfold set
    rw [if_neg hsame, ih hrest]
    rfl

/-- Setting an entry that is there changes it at its place. -/
theorem set_of_mem (distinct : entries.forms.Nodup) (h : Text.lower key ∈ entries.forms) :
    set key slot entries =
      entries.map fun e => if Text.lower e.1 = Text.lower key then (key, slot) else e := by
  induction entries with
  | nil => cases h
  | cons e entries ih =>
    obtain ⟨hnew, hrest⟩ : Text.lower e.1 ∉ forms entries ∧ (forms entries).Nodup :=
      List.nodup_cons.1 distinct
    unfold set sameKey
    rw [List.map_cons]
    by_cases hkey : Text.lower e.1 = Text.lower key
    · rw [if_pos (beq_iff_eq.2 hkey), if_pos hkey]
      -- no later entry is under the form
      have hid : ∀ e' ∈ entries,
          (if Text.lower e'.1 = Text.lower key then (key, slot) else e') = e' := by
        intro e' he'
        refine if_neg fun hkey' => hnew ?_
        rw [hkey, ← hkey']
        exact List.mem_map_of_mem he'
      rw [List.map_congr_left hid, List.map_id']
    · have hmem : Text.lower key ∈ forms entries :=
        (List.mem_cons.1 h).resolve_left fun heq => hkey heq.symm
      rw [if_neg (mt beq_iff_eq.1 hkey), if_neg hkey, ih hrest hmem]

theorem forms_append_singleton :
    forms (entries ++ [(key, slot)]) = entries.forms ++ [Text.lower key] :=
  List.map_append

theorem forms_insert : (entries.insert key slot).forms =
    if Text.lower key ∈ entries.forms then entries.forms
    else entries.forms ++ [Text.lower key] := by
  by_cases h : Text.lower key ∈ entries.forms
  · rw [insert_of_mem h, if_pos h]
  · rw [insert_of_not_mem h, if_neg h, forms_append_singleton]

theorem forms_set (distinct : entries.forms.Nodup) : (set key slot entries).forms =
    if Text.lower key ∈ entries.forms then entries.forms
    else entries.forms ++ [Text.lower key] := by
  by_cases h : Text.lower key ∈ entries.forms
  · rw [set_of_mem distinct h, if_pos h, forms, forms, List.map_map]
    refine List.map_congr_left fun e _ => ?_
    show Text.lower (if Text.lower e.1 = Text.lower key then (key, slot) else e).1 = Text.lower e.1
    split
    · exact (‹_› : Text.lower e.1 = Text.lower key).symm
    · rfl
  · rw [set_of_not_mem h, if_neg h, forms_append_singleton]

theorem Under.insert (h : entries.Under form slot) :
    (entries.insert key slot').Under form slot := by
  by_cases hmem : Text.lower key ∈ entries.forms
  · rwa [insert_of_mem hmem]
  · obtain ⟨k, hk, hform⟩ := h
    rw [insert_of_not_mem hmem]
    exact ⟨k, List.mem_append_left _ hk, hform⟩

theorem under_append_singleton (h : (entries ++ [(key, slot')] : Entries).Under form slot) :
    entries.Under form slot ∨ form = Text.lower key ∧ slot = slot' := by
  obtain ⟨k, hk, hform⟩ := h
  rcases List.mem_append.1 hk with hk | hk
  · exact .inl ⟨k, hk, hform⟩
  · obtain ⟨rfl, rfl⟩ := Prod.mk.inj (List.mem_singleton.1 hk)
    exact .inr ⟨hform.symm, rfl⟩

theorem under_of_under_insert (h : (entries.insert key slot').Under form slot) :
    entries.Under form slot ∨ form = Text.lower key ∧ slot = slot' := by
  by_cases hmem : Text.lower key ∈ entries.forms
  · rw [insert_of_mem hmem] at h
    exact .inl h
  · rw [insert_of_not_mem hmem] at h
    exact under_append_singleton h

theorem Under.set (distinct : entries.forms.Nodup) (h : entries.Under form slot)
    (hne : form ≠ Text.lower key) : (Entries.set key slot' entries).Under form slot := by
  obtain ⟨k, hk, rfl⟩ := h
  by_cases hmem : Text.lower key ∈ entries.forms
  · rw [set_of_mem distinct hmem]
    exact ⟨k, List.mem_map.2 ⟨_, hk, if_neg hne⟩, rfl⟩
  · rw [set_of_not_mem hmem]
    exact ⟨k, List.mem_append_left _ hk, rfl⟩

theorem under_of_under_set (distinct : entries.forms.Nodup)
    (h : (set key slot' entries).Under form slot) :
    entries.Under form slot ∨ form = Text.lower key ∧ slot = slot' := by
  by_cases hmem : Text.lower key ∈ entries.forms
  · rw [set_of_mem distinct hmem] at h
    obtain ⟨k, hk, hform⟩ := h
    obtain ⟨e, he, heq⟩ := List.mem_map.1 hk
    split at heq
    · obtain ⟨rfl, rfl⟩ := Prod.mk.inj heq
      exact .inr ⟨hform.symm, rfl⟩
    · subst heq
      exact .inl ⟨k, he, hform⟩
  · rw [set_of_not_mem hmem] at h
    exact under_append_singleton h

end Entries

/-! ## Calls -/

namespace Mapping

/-- A call that reads a mapping. -/
inductive Query
  | get (key : String)
  | has (key : String)
  | keys
  /-- So many entries in order, after the first few. -/
  | iter (first count : Nat)
  | len

/-- What a call answers. -/
inductive Answer
  | nothing
  | flag (b : Bool)
  | value (v : Option Value)
  | keys (ks : List String)
  | entries (es : List (String × Value))
  | count (n : Nat)

/-- What computes a lazy entry: a program that reads the mapping as often as it likes, and does
anything else that forgets no lazy value. -/
inductive Program
  | done (v : Value)
  | act (f : Store → Store) (onward : ∀ s : Store, s.Onward (f s)) (next : Store → Program)
  | ask (q : Query) (next : Answer → Program)

/-- A call on a mapping. -/
inductive Call
  | insert (key : String) (v : Value)
  | insertLazy (key : String) (w : Work)
  | set (key : String) (v : Value)
  | ask (q : Query)

/-- The answer of a call that reads. -/
def Query.run (engine : Engine) (entries : Entries) : Query → Run Answer
  | get key => return .value (← engine.readKey? entries key)
  | has key => return .flag (entries.has key)
  | keys => return .keys entries.keys
  | iter first count => return .entries (← engine.readAll ((entries.drop first).take count))
  | len => return .count entries.length

/-- The value that a program computes, where its calls are answered. -/
def Program.run (answer : Query → Run Answer) : Program → Run Value
  | done v => return v
  | act f _ next => do
    modify f
    (next (← get)).run answer
  | ask q next => do
    let a ← answer q
    (next a).run answer

/-- What answers the requests that lazy entries lead to, if they nest no deeper than the fuel
allows.  `bodies` are the programs of what has been put off. -/
def client (bodies : Work → Program) (answer : Engine → Query → Run Answer) : Nat → Engine
  | 0 => ⟨fun _ => Run.exhausted⟩
  | fuel + 1 => ⟨respond (client bodies answer fuel)⟩
where
  respond (engine : Engine) : {α : Type} → Request α → Run α
    | _, .force thunk => engine.force thunk
    | _, .evaluate session key => do
      let v ← (bodies (.expression session key)).run (answer engine)
      return some ⟨0, .value .undefined v⟩
    | _, .folderValue session key => (bodies (.folder session key)).run (answer engine)
    | _, _ => Run.exhausted

/-- The engine that reads the entries of a mapping. -/
def reader (bodies : Work → Program) (entries : Entries) (fuel : Nat) : Engine :=
  client bodies (fun engine => Query.run engine entries) fuel

/-- The answer of a call, and the entries after it. -/
def Call.run (bodies : Work → Program) (fuel : Nat) (entries : Entries) :
    Call → Run (Answer × Entries)
  | insert key v =>
    return (.flag (entries.insert? key (.ready v)).isSome, entries.insert key (.ready v))
  | insertLazy key w => do
    let slot ← Run.newThunk w
    return (.flag (entries.insert? key slot).isSome, entries.insert key slot)
  | set key v => return (.nothing, entries.set key (.ready v))
  | ask q => return (← q.run (reader bodies entries fuel) entries, entries)

/-- The answers of several calls, and the entries after them. -/
def run (bodies : Work → Program) (fuel : Nat) : List Call → Entries → Run (List Answer × Entries)
  | [], entries => return ([], entries)
  | call :: calls, entries => do
    let r ← call.run bodies fuel entries
    let rs ← run bodies fuel calls r.2
    return (r.1 :: rs.1, rs.2)

/-! ## Calls on a table -/

/-- What an association list answers.  A value is found under the form of the key. -/
def Query.look (engine : Engine) (table : Table) : Query → Run Answer
  | get key =>
    match table.lookup (Text.lower key) with
    | some e => return .value (some (← engine.read e.2))
    | none => return .value none
  | has key => return .flag (table.lookup (Text.lower key)).isSome
  | keys => return .keys (table.map (·.2.1))
  | iter first count =>
    return .entries (← engine.readAll (((table.map (·.2)).drop first).take count))
  | len => return .count table.length

/-- Adds an entry at the end unless its form is there already. -/
def Table.add (table : Table) (key : String) (slot : Slot) : Bool × Table :=
  match table.lookup (Text.lower key) with
  | some _ => (false, table)
  | none => (true, table ++ [(Text.lower key, (key, slot))])

/-- What an association list answers, and what becomes of it. -/
def Call.look (bodies : Work → Program) (fuel : Nat) (table : Table) : Call → Run (Answer × Table)
  | insert key v =>
    let r := Table.add table key (.ready v)
    return (.flag r.1, r.2)
  | insertLazy key w => do
    let slot ← Run.newThunk w
    let r := Table.add table key slot
    return (.flag r.1, r.2)
  | set key v => return (.nothing, Keyed.put (Text.lower key) (key, .ready v) table)
  | ask q => do
    let engine := client bodies (fun engine => Query.look engine table) fuel
    return (← q.look engine table, table)

def look (bodies : Work → Program) (fuel : Nat) : List Call → Table → Run (List Answer × Table)
  | [], table => return ([], table)
  | call :: calls, table => do
    let r ← call.look bodies fuel table
    let rs ← look bodies fuel calls r.2
    return (r.1 :: rs.1, rs.2)

theorem Query.run_eq_look (engine : Engine) (entries : Entries) (q : Query) :
    q.run engine entries = q.look engine entries.table := by
  cases q with
  | get key =>
    show (engine.readKey? entries key >>= fun v => pure (Answer.value v)) =
      match entries.table.lookup (Text.lower key) with
      | some e => engine.read e.2 >>= fun v => pure (Answer.value (some v))
      | none => pure (Answer.value none)
    unfold Engine.readKey?
    rw [Entries.find?_eq_lookup]
    cases entries.table.lookup (Text.lower key) with
    | none => rfl
    | some e => exact bind_map_left _ _ _
  | has key => exact congrArg (fun b => pure (Answer.flag b)) (entries.has_eq_isSome key)
  | keys =>
    have hkeys : entries.keys = entries.table.map (·.2.1) := by
      rw [Entries.keys, Entries.table, List.map_map]
      rfl
    exact congrArg (fun ks => pure (Answer.keys ks)) hkeys
  | iter first count =>
    show (engine.readAll ((entries.drop first).take count) >>= _) =
      (engine.readAll (((entries.table.map (·.2)).drop first).take count) >>= _)
    rw [Entries.map_table_snd]
  | len =>
    have hlength : entries.length = entries.table.length := (List.length_map _).symm
    exact congrArg (fun n => pure (Answer.count n)) hlength

theorem reader_eq (bodies : Work → Program) (entries : Entries) (fuel : Nat) :
    reader bodies entries fuel =
      client bodies (fun engine => Query.look engine entries.table) fuel := by
  have hask : (fun engine => Query.run engine entries) =
      fun engine => Query.look engine entries.table := by
    funext engine q
    exact q.run_eq_look engine entries
  unfold reader
  rw [hask]

theorem Table.add_eq (entries : Entries) (key : String) (slot : Slot) :
    Table.add entries.table key slot =
      ((entries.insert? key slot).isSome, (entries.insert key slot).table) := by
  rw [Entries.table_insert, Entries.insert?, Entries.has_eq_isSome]
  unfold Table.add
  cases entries.table.lookup (Text.lower key) <;> rfl

theorem Call.run_eq_look (bodies : Work → Program) (fuel : Nat) (entries : Entries) (call : Call) :
    call.look bodies fuel entries.table =
      (fun r => (r.1, r.2.table)) <$> call.run bodies fuel entries := by
  cases call with
  | insert key v =>
    show pure (_, _) = _
    rw [Table.add_eq]
    rfl
  | insertLazy key w =>
    show (Run.newThunk w >>= fun slot => pure (_, _)) = _
    simp only [Table.add_eq]
    rfl
  | set key v =>
    show pure (_, Keyed.put (Text.lower key) (key, .ready v) entries.table) = _
    rw [← Entries.table_set]
    rfl
  | ask q =>
    show (q.look (client bodies _ fuel) entries.table >>= fun a => pure (a, entries.table)) = _
    rw [← reader_eq, ← Query.run_eq_look]
    unfold run
    rw [map_bind]
    rfl

/-- Calls on a mapping do to its table what they do to an association list, and have the same
answers. -/
theorem run_eq_look (bodies : Work → Program) (fuel : Nat) (calls : List Call) (entries : Entries) :
    look bodies fuel calls entries.table =
      (fun r => (r.1, r.2.table)) <$> run bodies fuel calls entries := by
  induction calls generalizing entries with
  | nil => rfl
  | cons call calls ih =>
    unfold look run
    rw [Call.run_eq_look, map_bind, bind_map_left]
    congr
    funext r
    rw [ih, map_bind, bind_map_left]
    rfl

end Mapping
end Workbook
