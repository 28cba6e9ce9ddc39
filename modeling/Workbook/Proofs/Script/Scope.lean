/-
What blocks of running scripts may gain.

`Stmt.declares` says which names a statement declares in the block that it is run in, and
`Block.Grows` what may become of a block while names like these are declared: it loses none, and
constants keep their values.  `Activity.Linked` says where statements are run: each in the block of
the statement around it, or in the new block of the call, loop, block or script that it is a direct
part of.  `Store.Pinned` is about one variable that keeps its value.
-/
import Workbook.Proofs.Session.Depth

namespace Workbook

/-! ## Names of blocks -/

namespace Script

namespace Stmt

/-- The names that a statement declares in the block that it is run in. -/
def declares : Stmt → List String
  | declaration _ _ k _ => [k.text]
  | branch _ _ yes none => declares yes
  | branch _ _ yes (some no) => declares yes ++ declares no
  | whileLoop _ _ body => declares body
  | _ => []
termination_by structural st => st

/-- The names of the block that a list of statements is run in. -/
def names (sts : List Stmt) : List String :=
  hoisted sts ++ sts.flatMap declares

/-- The names of the functions that a statement defines in the block that it makes. -/
def defined : Stmt → List String
  | block _ body => hoisted body
  | _ => []

/-- The names of the blocks that a statement makes. -/
def innerNames (st : Stmt) : List String :=
  st.iterated ++ st.defined ++ st.inner.flatMap declares

variable {st part : Stmt}

theorem declares_eq (st : Stmt) : st.declares = st.declared ++ st.direct.flatMap declares := by
  cases st with
  | branch _ _ yes no => cases no <;> simp [declares, declared, direct]
  | _ => simp [declares, declared, direct]

theorem declared_subset (st : Stmt) : st.declared ⊆ st.declares :=
  st.declares_eq ▸ List.subset_append_left _ _

theorem declares_direct (h : part ∈ st.direct) : part.declares ⊆ st.declares := by
  rw [st.declares_eq]
  exact fun _ hn => List.mem_append_right _ (List.mem_flatMap.2 ⟨part, h, hn⟩)

theorem declares_inner (h : part ∈ st.inner) : part.declares ⊆ st.innerNames :=
  fun _ hn => List.mem_append_right _ (List.mem_flatMap.2 ⟨part, h, hn⟩)

theorem iterated_subset (st : Stmt) : st.iterated ⊆ st.innerNames := by
  unfold innerNames
  rw [List.append_assoc]
  exact List.subset_append_left _ _

theorem declares_names {body : List Stmt} (h : st ∈ body) : st.declares ⊆ names body :=
  fun _ hn => List.mem_append_right _ (List.mem_flatMap.2 ⟨st, h, hn⟩)

end Stmt

/-- The statements of a body. -/
def Body.statements : Body → List Stmt
  | .block body => body
  | .expr _ => []

/-- The names of the block that a call of a function makes. -/
def Function.names (f : Function) : List String :=
  f.parameters.map Name.text ++ Stmt.names f.body.statements

end Script

namespace Keyed

variable {α : Type} {key : String} {entries : List (String × α)}

theorem not_mem_of_lookup (h : entries.lookup key = none) : key ∉ entries.map (·.1) := by
  intro hmem
  obtain ⟨e, he, rfl⟩ := List.mem_map.1 hmem
  simpa using List.lookup_eq_none_iff.1 h e he

/-- A key that is present keeps its place. -/
theorem keys_put_of_some (value : α) (h : (entries.lookup key).isSome) :
    (put key value entries).map (·.1) = entries.map (·.1) := by
  induction entries with
  | nil => cases h
  | cons e rest ih =>
    obtain ⟨k, v⟩ := e
    by_cases hk : k = key
    · rw [put, if_pos hk]
      rfl
    · have hne : (key == k) = false := by simpa using fun h => hk h.symm
      rw [List.lookup_cons, hne] at h
      rw [put, if_neg hk, List.map_cons, ih h, List.map_cons]

/-- A key that is absent comes last. -/
theorem keys_put_of_none (value : α) (h : entries.lookup key = none) :
    (put key value entries).map (·.1) = entries.map (·.1) ++ [key] := by
  have hkey := not_mem_of_lookup h
  clear h
  induction entries with
  | nil => rfl
  | cons e rest ih =>
    obtain ⟨k, v⟩ := e
    rw [List.map_cons, List.mem_cons, not_or] at hkey
    rw [put, if_neg (Ne.symm hkey.1), List.map_cons, ih hkey.2, List.map_cons, List.cons_append]

end Keyed

namespace Block

/-- The names that a block declares. -/
def names (b : Block) : List String :=
  b.bindings.map (·.1)

/-- What a block may become: it gains names among those that are given, no name is there twice, and
variables stay what they are, constants with their values. -/
structure Grows (gain : List String) (b b' : Block) : Prop where
  parent : b'.parent = b.parent
  names : ∃ more ⊆ gain, b'.names = b.names ++ more
  nodup : b.names.Nodup → b'.names.Nodup
  kept : ∀ name v, b.bindings.lookup name = some v → ∃ v', b'.bindings.lookup name = some v' ∧
    v'.constant = v.constant ∧ (v.constant = true → v'.value = v.value)

variable {gain more : List String} {b b' b'' : Block}

theorem grows_self (gain : List String) (b : Block) : b.Grows gain b where
  parent := rfl
  names := ⟨[], List.nil_subset _, (List.append_nil _).symm⟩
  nodup h := h
  kept _ v h := ⟨v, h, rfl, fun _ => rfl⟩

theorem Grows.trans (h : b.Grows gain b') (h' : b'.Grows gain b'') : b.Grows gain b'' where
  parent := h'.parent.trans h.parent
  names := by
    obtain ⟨l, hl, hb⟩ := h.names
    obtain ⟨l', hl', hb'⟩ := h'.names
    exact ⟨l ++ l', List.append_subset.2 ⟨hl, hl'⟩, by rw [hb', hb, List.append_assoc]⟩
  nodup hb := h'.nodup (h.nodup hb)
  kept name v hv := by
    obtain ⟨v', hv', hc, hk⟩ := h.kept name v hv
    obtain ⟨v'', hv'', hc', hk'⟩ := h'.kept name v' hv'
    exact ⟨v'', hv'', hc'.trans hc, fun hv => (hk' (hc.trans hv)).trans (hk hv)⟩

theorem Grows.mono (h : b.Grows gain b') (hgain : gain ⊆ more) : b.Grows more b' where
  parent := h.parent
  names := by
    obtain ⟨l, hl, hb⟩ := h.names
    exact ⟨l, fun _ hn => hgain (hl hn), hb⟩
  nodup := h.nodup
  kept := h.kept

/-- Names stay. -/
theorem Grows.subset (h : b.Grows gain b') : b.names ⊆ b'.names := by
  obtain ⟨l, -, hb⟩ := h.names
  exact hb ▸ List.subset_append_left _ _

/-- A block gains nothing but what it may. -/
theorem Grows.names_subset (h : b.Grows gain b') {l : List String} (hb : b.names ⊆ l)
    (hgain : gain ⊆ l) : b'.names ⊆ l := by
  obtain ⟨m, hm, hb'⟩ := h.names
  rw [hb']
  exact List.append_subset.2 ⟨hb, fun _ hn => hgain (hm hn)⟩

/-- A variable that is no constant has a new value. -/
theorem grows_set {name : String} {v w : Variable} (hv : b.bindings.lookup name = some v)
    (hc : v.constant = false) (hw : w.constant = false) : b.Grows gain (b.set name w) := by
  have hnames : (b.set name w).names = b.names :=
    Keyed.keys_put_of_some w (Option.isSome_iff_exists.2 ⟨v, hv⟩)
  refine ⟨rfl, ⟨[], List.nil_subset _, by rw [hnames, List.append_nil]⟩, fun h => hnames ▸ h,
    fun other u hu => ?_⟩
  by_cases hother : other = name
  · subst hother
    obtain rfl : v = u := Option.some.inj (hv.symm.trans hu)
    exact ⟨w, Keyed.lookup_put _ _ _, hw.trans hc.symm, fun h => absurd (hc.symm.trans h) nofun⟩
  · exact ⟨u, (Keyed.lookup_put_of_ne hother w _).trans hu, rfl, fun _ => rfl⟩

/-- A name is new. -/
theorem grows_new {name : String} (w : Variable) (h : b.bindings.lookup name = none)
    (hname : name ∈ gain) : b.Grows gain (b.set name w) := by
  have hnames : (b.set name w).names = b.names ++ [name] := Keyed.keys_put_of_none w h
  refine ⟨rfl, ⟨[name], by simpa using hname, hnames⟩, fun hb => ?_, fun other u hu => ?_⟩
  · rw [hnames, ← List.concat_eq_append]
    exact hb.concat (Keyed.not_mem_of_lookup h)
  · have hother : other ≠ name := by
      rintro rfl
      rw [h] at hu
      cases hu
    exact ⟨u, (Keyed.lookup_put_of_ne hother w _).trans hu, rfl, fun _ => rfl⟩

end Block

/-! ## Stores with the same blocks -/

namespace Store

/-- Every block of an earlier store is there and has become what it may. -/
def Widens (gain : Nat → List String) (s t : Store) : Prop :=
  ∀ (place : Nat) (b : Block), s.blocks[place]? = some b →
    ∃ b', t.blocks[place]? = some b' ∧ b.Grows (gain place) b'

variable {gain : Nat → List String} {s t u : Store}

theorem widens_self (gain : Nat → List String) (s : Store) : s.Widens gain s :=
  fun place b h => ⟨b, h, b.grows_self (gain place)⟩

theorem Widens.trans (h : s.Widens gain t) (h' : t.Widens gain u) : s.Widens gain u := by
  intro place b hb
  obtain ⟨b', hb', hgrows⟩ := h place b hb
  obtain ⟨b'', hb'', hgrows'⟩ := h' place b' hb'
  exact ⟨b'', hb'', hgrows.trans hgrows'⟩

theorem Inert.widens (h : s.Inert t) : s.Widens gain t :=
  fun place b hb => ⟨b, h.blocks place b hb, b.grows_self (gain place)⟩

theorem Widens.inert (h : s.Widens gain t) (ht : t.Inert u) : s.Widens gain u :=
  h.trans ht.widens

theorem Widens.absent {place : Nat} (h : s.Widens gain t) (ht : t.blocks[place]? = none) :
    s.blocks[place]? = none := by
  cases hs : s.blocks[place]? with
  | none => rfl
  | some b =>
    obtain ⟨b', hb', -⟩ := h place b hs
    rw [ht] at hb'
    cases hb'

theorem blocks_setVariable (s : Store) (place : Nat) (name : String) (v : Variable) (other : Nat) :
    (s.setVariable place name v).blocks[other]? =
      if place = other then (s.blocks[other]?).map (·.set name v) else s.blocks[other]? :=
  Array.getElem?_modify

/-- What a name means is found in the block that declares it. -/
theorem lookup_of_resolve? {place outer : Nat} {name : String} {v : Variable}
    (h : s.resolve? place name = some (outer, v)) :
    ∃ b, s.blocks[outer]? = some b ∧ b.bindings.lookup name = some v := by
  induction place using Nat.strongRecOn with
  | ind place ih =>
    rw [resolve?.eq_def] at h
    cases hb : s.blocks[place]? with
    | none => simp [hb] at h
    | some b =>
      simp only [hb] at h
      cases hl : b.bindings.lookup name with
      | some w =>
        simp only [hl, Option.some.injEq, Prod.mk.injEq] at h
        obtain ⟨rfl, rfl⟩ := h
        exact ⟨b, hb, hl⟩
      | none =>
        cases hp : b.parent with
        | none => simp [hl, hp] at h
        | some parent =>
          simp only [hl, hp] at h
          split at h
          · exact ih parent ‹_› h
          · cases h

/-- Where no block gains names, the same block declares what a name means, if any. -/
theorem Widens.resolve? {place : Nat} (h : s.Widens (fun _ => []) t)
    (hplace : place < s.blocks.size) (name : String) :
    (t.resolve? place name).map (·.1) = (s.resolve? place name).map (·.1) := by
  induction place using Nat.strongRecOn with
  | ind place ih =>
    have hb := Array.getElem?_eq_getElem hplace
    generalize s.blocks[place] = b at hb
    obtain ⟨b', hb', hgrows⟩ := h place b hb
    rw [resolve?.eq_def s, resolve?.eq_def t]
    simp only [hb, hb', hgrows.parent]
    cases hl : b.bindings.lookup name with
    | some v =>
      obtain ⟨v', hv', -⟩ := hgrows.kept name v hl
      rw [hv']
      rfl
    | none =>
      have hl' : b'.bindings.lookup name = none := by
        refine Keyed.lookup_of_not_mem fun hmem => Keyed.not_mem_of_lookup hl ?_
        exact hgrows.names_subset (l := b.names) (List.Subset.refl _) (List.nil_subset _) hmem
      rw [hl']
      cases b.parent with
      | none => rfl
      | some parent =>
        simp only
        split
        · exact ih parent ‹_› (Nat.lt_trans ‹_› hplace)
        · rfl

end Store

namespace Run

theorem declare_run (place : Nat) (name : String) (how : Script.Declarator) (v : Native)
    (s : Store) :
    declare place name how v s =
      if (s.blocks[place]?).any fun b => (b.bindings.lookup name).isSome then
        fail (.runtime ("'" ++ name ++ "' has already been declared")) s
      else .ok () (s.setVariable place name ⟨v, how = .constant⟩) := by
  show ((if _ then _ else _ : Run Unit) s) = _
  split <;> rfl

theorem assign_run (place : Nat) (name : String) (v : Native) (s : Store) :
    assign place name v s = match s.resolve? place name with
      | some (owner, u) =>
        if u.constant then fail (.constantAssigned name) s
        else .ok () (s.setVariable owner name ⟨v, false⟩)
      | none => fail (.readOnly name) s := by
  unfold assign
  rw [get_bind]
  cases s.resolve? place name with
  | none => rfl
  | some x =>
    obtain ⟨owner, u⟩ := x
    simp only
    cases u.constant <;> rfl

end Run

/-! ## Statements in their places -/

namespace Request

/-- The execution, the block and the statement of a request for one. -/
def statement? : {α : Type} → Request α → Option (Nat × Nat × Script.Stmt)
  | _, .statement run block st => some (run, block, st)
  | _, _ => none

/-- What a block gains while a request is being answered. -/
def gains : {α : Type} → Request α → Nat → List String
  | _, .statement _ block st, place => if place = block then st.declares else []
  | _, _, _ => []

/-- The names of the blocks that answering a request makes, and the statements run in them: the
body of a function, a loop or a block, or a script. -/
inductive Makes : {α : Type} → Request α → List String → List Script.Stmt → Prop
  | call (run block : Nat) (f : Script.Function) (name : String) (arguments : List Native) :
      Makes (.invoke run block f name arguments) f.names f.body.statements
  | inner (run block : Nat) (st : Script.Stmt) :
      Makes (.statement run block st) st.innerNames st.inner
  | script (session : Nat) (key : String) (body : List Script.Stmt) :
      Makes (.evaluate session key) (Script.Stmt.names body) body

end Request

namespace Activity

/-- A body that is run where nothing else is being answered: its block, the names that the block
may have, and the statements that are run in it. -/
structure Root where
  place : Nat
  names : List String
  statements : List Script.Stmt

/-- A block was made for the innermost activity, with these names and for these statements. -/
def Makes (root : Option Root) (outer : List Activity) (place : Nat) (names : List String)
    (sts : List Script.Stmt) : Prop :=
  match outer with
  | [] => root = some ⟨place, names, sts⟩
  | a :: _ => a.store.blocks[place]? = none ∧ a.request.Makes names sts

/-- The innermost activity is a statement, of which another is a part in the same block. -/
def Inside (outer : List Activity) (run block : Nat) (st : Script.Stmt) : Prop :=
  ∃ a ∈ outer.head?, ∃ around, a.request.statement? = some (run, block, around) ∧ st ∈ around.direct

/-- Every statement is asked for where it stands: in the block of the statement around it, or in
the block of the body that it is a statement of, which has the names of that body only. -/
def Linked (root : Option Root) : List Activity → Prop
  | [] => True
  | a :: outer => Linked root outer ∧
    ∀ run block st, a.request.statement? = some (run, block, st) → Inside outer run block st ∨
      ∃ names sts, Makes root outer block names sts ∧ st ∈ sts ∧
        ∃ b, a.store.blocks[block]? = some b ∧ b.names ⊆ names

end Activity

/-- Blocks have gained what the statements that are being run declare, each in its place. -/
structure Store.Scoped (root : Option Activity.Root) (active : List Activity) (t : Store) :
    Prop where
  kept : ∀ a ∈ active, a.store.Widens a.request.gains t
  linked : Activity.Linked root active

/-! ## Variables that stay -/

/-- A variable with its value. -/
structure Pin where
  place : Nat
  name : String
  value : Native

/-- The variable has the value. -/
def Store.Pinned (t : Store) (pin : Option Pin) : Prop :=
  ∀ q ∈ pin, ∃ b, t.blocks[q.place]? = some b ∧ b.bindings.lookup q.name = some ⟨q.value, false⟩

/-- The block and the name of a request for an expression that itself assigns to a name. -/
def Request.assigned? : {α : Type} → Request α → Option (Nat × String)
  | _, .expression _ block e => e.assigned?.map (block, ·)
  | _, _ => none

theorem Request.gains_of_statement {α : Type} {r : Request α} {run block : Nat} {st : Script.Stmt}
    (h : r.statement? = some (run, block, st)) : r.gains block = st.declares := by
  cases r with
  | statement =>
    cases h
    exact if_pos rfl
  | _ => cases h

theorem Request.gains_of_assigned {α : Type} {r : Request α} {x : Nat × String}
    (h : r.assigned? = some x) : r.gains = fun _ => [] := by
  cases r with
  | expression => rfl
  | _ => cases h

/-- The variable itself is assigned to.  Nothing is known of names in blocks that are not there. -/
def Activity.Reassigns (pin : Option Pin) (a : Activity) : Prop :=
  ∃ q ∈ pin, ∃ block, a.request.assigned? = some (block, q.name) ∧
    ((a.store.resolve? block q.name).map (·.1) = some q.place ∨ a.store.blocks.size ≤ block)

theorem Store.Pinned.inert {t u : Store} {pin : Option Pin} (h : t.Pinned pin) (hu : t.Inert u) :
    u.Pinned pin := by
  intro q hq
  obtain ⟨b, hb, hl⟩ := h q hq
  exact ⟨b, hu.blocks _ b hb, hl⟩

end Workbook
