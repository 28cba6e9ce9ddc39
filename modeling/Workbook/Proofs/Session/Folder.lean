/-
Reading a member of a folder.

The value of a folder is a mapping of lazy entries.  A formula that reads a member forces the one
entry: `formula_reads_one_member` says that it executes what evaluating the member executes, and
nothing else.  A script that reads a member has the whole mapping turned into an object first, which
forces all entries; `script_reads_all_members` is an example.
-/
import Mathlib
import Workbook.Proofs.Outline.Crawl
import Workbook.Proofs.Session.Stack

namespace Workbook

/-! ## The entries of a folder -/

namespace Entries

/-- The slot under a key is kept while entries are added. -/
theorem find?_insert_of_some {out : Entries} {key name : String} {slot added : Slot}
    (h : out.find? key = some slot) : (insert out name added).find? key = some slot := by
  unfold insert insert?
  split
  · exact h
  · unfold find? at h ⊢
    obtain ⟨e, he, rfl⟩ := Option.map_eq_some_iff.1 h
    show Option.map _ (List.find? _ (out ++ [(name, added)])) = _
    rw [List.find?_append, he]
    rfl

theorem find?_insert_of_none {out : Entries} {key name : String} {added : Slot}
    (h : out.find? key = none) : (insert out name added).find? key =
      if Text.lower name = Text.lower key then some added else none := by
  have hout : List.find? (fun e => Text.lower e.1 == Text.lower key) out = none :=
    Option.map_eq_none_iff.1 h
  unfold insert insert?
  by_cases hname : Text.lower name = Text.lower key
  · have hfind : out.find? name = out.find? key := by
      unfold find?
      rw [hname]
    have hhas : ¬ out.has name := by
      unfold has
      rw [hfind, h]
      exact Bool.false_ne_true
    rw [if_neg hhas, if_pos hname]
    show Option.map _ (List.find? _ (out ++ [(name, added)])) = _
    rw [List.find?_append, hout]
    simp [hname]
  · rw [if_neg hname]
    split
    · exact h
    · show Option.map _ (List.find? _ (out ++ [(name, added)])) = _
      rw [List.find?_append, hout]
      simp [hname]

theorem find?_lazyFrom_of_some {out : Entries} {key : String} {slot : Slot}
    (h : out.find? key = some slot) (n : Nat) (ws : List (String × Work)) :
    (lazyFrom n out ws).find? key = some slot := by
  induction ws generalizing n out with
  | nil => exact h
  | cons w ws ih => exact ih (find?_insert_of_some h) (n + 1)

/-- The first work under a key has the key. -/
theorem find?_lazyFrom {out : Entries} {key : String} (h : out.find? key = none) (n : Nat)
    {before after : List (String × Work)} {w : String × Work}
    (hw : Text.lower w.1 = Text.lower key)
    (hbefore : ∀ v ∈ before, Text.lower v.1 ≠ Text.lower key) :
    (lazyFrom n out (before ++ w :: after)).find? key = some (.lazy (n + before.length)) := by
  induction before generalizing n out with
  | nil =>
    refine find?_lazyFrom_of_some ?_ (n + 1) after
    rw [find?_insert_of_none h, if_pos hw]
    rfl
  | cons v before ih =>
    have hv := hbefore v List.mem_cons_self
    have hnone : (insert out v.1 (.lazy n)).find? key = none := by
      rw [find?_insert_of_none h, if_neg hv]
    have hfind := ih hnone (n + 1) fun u hu => hbefore u (List.mem_cons_of_mem _ hu)
    rw [List.length_cons, show n + (before.length + 1) = n + 1 + before.length by omega]
    exact hfind

end Entries

/-- The store with the entries of a folder put off and its mapping kept. -/
def Store.listed (s : Store) (place : Nat) (o : Outline) (key : String) : Store :=
  (s.postponing (o.members place key)).changeSession place fun σ =>
    { σ with folderValues := (key, .ofEntries (o.listing place key s.thunks.size)) :: σ.folderValues }

/-- A folder that a session has not looked at, in which no expression stands for the folder. -/
structure Session.Unread (σ : Session) (key : String) : Prop where
  folder : (σ.outline.folder? key).isSome
  absent : ∀ name ∈ Engine.sentinels, σ.outline.expression? (childKey key name) = none
  unread : σ.folderValues.lookup key = none

namespace Store

theorem begun_listed (s : Store) (place : Nat) (o : Outline) (key : String) (other : Nat) :
    (s.listed place o key).begun other = s.begun other := by
  unfold begun listed changeSession
  simp only [Array.getElem?_modify]
  show Option.getD (Option.map Session.begun (if place = other then
    (s.sessions[other]?).map _ else s.sessions[other]?)) [] = _
  split
  · rw [Option.map_map]
    rfl
  · rfl

end Store

namespace Engine

variable {s : Store} {place fuel : Nat} {σ : Session} {key : String}

/-- No expression stands for a folder in which none has a name that would. -/
theorem firstResult_run (hσ : s.sessions[place]? = some σ)
    (absent : ∀ name ∈ sentinels, σ.outline.expression? (childKey key name) = none) :
    (Engine.ofFuel (fuel + 1)).firstResult place (sentinels.map (childKey key)) s = .ok none s := by
  have habsent (name : String) (hname : name ∈ sentinels) :
      (Engine.ofFuel (fuel + 1)).ask (.evaluate place (childKey key name)) s = .ok none s :=
    evaluate_absent _ (by rw [Store.expression?_of_outline hσ, absent name hname])
  show (Engine.ofFuel (fuel + 1)).firstResult place [childKey key "return", childKey key "eval"] s
    = _
  unfold firstResult
  rw [Run.bind_run (habsent "return" (by decide))]
  show (Engine.ofFuel (fuel + 1)).firstResult place [childKey key "eval"] s = _
  unfold firstResult
  rw [Run.bind_run (habsent "eval" (by decide))]
  rfl

/-- The value of a folder that has not been looked at. -/
theorem folderValue_run (hσ : s.sessions[place]? = some σ) (h : σ.Unread key) :
    (Engine.ofFuel (fuel + 1)).folderValue place key s =
      .ok (.ofEntries (σ.outline.listing place key s.thunks.size))
        (s.listed place σ.outline key) := by
  unfold folderValue
  rw [Run.get_bind]
  simp only [hσ, Option.isNone_eq_false_iff.2 h.folder, Bool.false_eq_true, if_false]
  rw [Run.bind_run (firstResult_run hσ h.absent)]
  simp only [h.unread]
  rw [Run.bind_run (lazyEntries_run place σ.outline key s)]
  rfl

/-- The value of a folder that has been looked at is the one that is kept. -/
theorem folderValue_kept {v : Value} (hσ : s.sessions[place]? = some σ)
    (folder : (σ.outline.folder? key).isSome)
    (absent : ∀ name ∈ sentinels, σ.outline.expression? (childKey key name) = none)
    (kept : σ.folderValues.lookup key = some v) :
    (Engine.ofFuel (fuel + 1)).folderValue place key s = .ok v s := by
  unfold folderValue
  rw [Run.get_bind]
  simp only [hσ, Option.isNone_eq_false_iff.2 folder, Bool.false_eq_true, if_false]
  rw [Run.bind_run (firstResult_run hσ absent)]
  simp only [kept]
  rfl

/-- A name that means a folder has the value of the folder. -/
theorem lookUp_run {e : Engine} {folder name : String} {es : Entries} {s' : Store}
    (hσ : s.sessions[place]? = some σ) (alive : σ.alive = true)
    (hplace : σ.outline.place? folder name = some (.folder key))
    (hvalue : e.ask (.folderValue place key) s = .ok (.ofEntries es) s') :
    e.lookUp (.folder place folder) name s = .ok (some (.ofEntries es)) s' := by
  have hthere : Run.session? place s = .ok ((s.sessions[place]?).filter (·.alive)) s := rfl
  have hsession : Run.session place s = .ok σ s := by
    unfold Run.session
    rw [Run.bind_run hthere, hσ, Option.filter_some, if_pos alive]
    rfl
  have hbinding : σ.binding place folder name s = .ok (some (.place (.folder key))) s := by
    unfold Session.binding
    rw [hplace]
    rfl
  have htyped : e.typedBinding place name (.place (.folder key)) s = .ok (.ofEntries es) s' := by
    show (e.ask (.folderValue place key) >>= fun v => Formula.checkedRead name v) s = _
    rw [Run.bind_run hvalue]
    rfl
  unfold lookUp
  simp only
  rw [Run.bind_run hsession, Run.bind_run hbinding]
  simp only
  rw [Run.bind_run htyped]
  rfl

/-! ## Reading one member -/

/-- Forcing an entry that is an expression changes sessions as evaluating the expression does. -/
theorem sessions_force {e : Engine} {thunk : Nat} (hσ : s.sessions[place]? = some σ)
    (alive : σ.alive = true) (h : s.thunks[thunk]? = some (.pending (.expression place key))) :
    ((e.force thunk).last s).sessions = ((e.ask (.evaluate place key)).last s).sessions := by
  have halive : (s.sessions[place]?).any (·.alive) = true := by
    rw [hσ]
    exact alive
  cases hr : e.ask (.evaluate place key) s with
  | error err s' =>
    have hperform : e.perform (.expression place key) s = .error err s' := by
      unfold perform
      simp only
      rw [Run.get_bind]
      simp only [halive, if_true]
      exact Run.bind_error hr
    have hforce : e.force thunk s = .error err s' := by
      unfold force
      rw [Run.get_bind]
      simp only [h]
      exact Run.bind_error hperform
    rw [Run.last_error hforce, Run.last_error hr]
  | ok r s' =>
    obtain ⟨v, hperform⟩ : ∃ v, e.perform (.expression place key) s = .ok v s' := by
      unfold perform
      simp only
      rw [Run.get_bind]
      simp only [halive, if_true]
      rw [Run.bind_run hr]
      cases r with
      | none => exact ⟨_, rfl⟩
      | some r => exact ⟨_, rfl⟩
    obtain ⟨w, t, hforce, hsessions⟩ :
        ∃ w t, e.force thunk s = .ok w t ∧ t.sessions = s'.sessions := by
      unfold force
      rw [Run.get_bind]
      simp only [h]
      rw [Run.bind_run hperform, Run.get_bind]
      rcases s'.thunks[thunk]? with _ | t
      · exact ⟨_, _, rfl, rfl⟩
      · cases t <;> exact ⟨_, _, rfl, rfl⟩
    rw [Run.last_ok hforce, Run.last_ok hr]
    exact hsessions

/-- Checking a value changes nothing. -/
theorem last_checkedRead (name : String) (v : Value) (t : Store) :
    (Formula.checkedRead name v).last t = t := by
  unfold Formula.checkedRead
  split <;> rfl

/-- Reading a member of a mapping forces its entry, and changes nothing otherwise. -/
theorem last_member {e : Engine} {entries : Entries} {name : String} {thunk : Nat}
    (hfind : entries.find? name = some (.lazy thunk)) :
    (e.member (.ofEntries entries) name).last s = (e.ask (.force thunk)).last s := by
  have hhas : entries.has name = true := by
    unfold Entries.has
    rw [hfind]
    rfl
  have hkey : e.readKey? entries name = some <$> e.ask (.force thunk) := by
    unfold readKey?
    rw [hfind]
    rfl
  have hbind : e.member (.ofEntries entries) name =
      (e.ask (.force thunk) >>= fun v => Formula.checkedRead name v) := by
    show (if entries.has name then e.readEntry entries name else _ : Run Value) = _
    rw [if_pos hhas]
    unfold readEntry
    rw [hkey, map_eq_pure_bind, bind_assoc]
    rfl
  cases hr : e.ask (.force thunk) s with
  | error err s' => rw [hbind, Run.last_error (Run.bind_error hr), Run.last_error hr]
  | ok v s' =>
    have hchecked : (Formula.checkedRead name v).last s' = s' := last_checkedRead name v s'
    unfold Run.last at hchecked ⊢
    rw [hbind, Run.bind_run hr, hr]
    exact hchecked

end Engine

/-- A member is found in the mapping of its folder, where it is put off. -/
theorem Outline.WellFormed.find?_listing {o : Outline} (h : o.WellFormed) (place : Nat)
    {key : String} {x : Outline.Expression} (hx : x ∈ o.childExpressions key)
    (ordinary : Text.lower x.name ∉ Engine.sentinels) {name : String}
    (hname : Text.lower x.name = Text.lower name) (s : Store) :
    ∃ thunk, (o.listing place key s.thunks.size).find? name = some (.lazy thunk) ∧
      (s.listed place o key).thunks[thunk]? = some (.pending (.expression place x.key)) := by
  have hmem : x ∈ (o.childExpressions key).filter
      fun x => !Engine.sentinels.contains (Text.lower x.name) :=
    List.mem_filter.2 ⟨hx, by simpa using ordinary⟩
  obtain ⟨before, after, hsplit, hfirst⟩ := List.eq_append_cons_of_mem hmem
  have hmembers : o.members place key =
      before.map (fun x => (x.name, Work.expression place x.key)) ++
        (x.name, Work.expression place x.key) ::
          (after.map (fun x => (x.name, Work.expression place x.key)) ++
            (o.childFolders key).map fun f => (f.name, Work.folder place f.key)) := by
    unfold Outline.members
    rw [hsplit]
    simp
  refine ⟨s.thunks.size + (before.map fun x => (x.name, Work.expression place x.key)).length,
    ?_, ?_⟩
  · unfold Outline.listing
    rw [hmembers]
    refine Entries.find?_lazyFrom rfl _ hname fun v hv => ?_
    obtain ⟨y, hy, rfl⟩ := List.mem_map.1 hv
    intro hsame
    have hchild : y ∈ o.childExpressions key := by
      have hy' : y ∈ before ++ x :: after := List.mem_append_left _ hy
      rw [← hsplit] at hy'
      exact (List.mem_filter.1 hy').1
    have heq : y = x := h.eq_of_name hchild hx (hsame.trans hname.symm)
    exact hfirst (heq ▸ hy)
  · show (s.postponing (o.members place key)).thunks[_]? = _
    rw [s.getElem?_postponing, hmembers, List.getElem?_append_right (Nat.le_refl _), Nat.sub_self]
    rfl

/-- The value of the name of a folder that has not been looked at. -/
theorem Engine.nameValue_run {s : Store} {place evaluation fuel : Nat} {e : Evaluation}
    {σ : Session} {folder name key : String} (hσ : s.sessions[place]? = some σ)
    (alive : σ.alive = true) (he : s.evaluations[evaluation]? = some e)
    (scope : e.scope = .folder place folder)
    (hplace : σ.outline.place? folder name = some (.folder key)) (unread : σ.Unread key) :
    (Engine.ofFuel (fuel + 2)).nameValue evaluation [] name s =
      .ok (.ofEntries (σ.outline.listing place key s.thunks.size))
        (s.listed place σ.outline key) := by
  have hvalue : (Engine.ofFuel (fuel + 2)).ask (.folderValue place key) s = _ :=
    folderValue_run hσ unread
  unfold nameValue
  simp only [List.lookup_nil]
  rw [Run.get_bind]
  simp only [he]
  rw [scope, Run.bind_run (lookUp_run hσ alive hplace hvalue)]
  rfl

/-- The store with an evaluation begun in a folder. -/
def Store.evaluating (s : Store) (place : Nat) (folder : String) (maxDepth : Nat) : Store :=
  { s with evaluations := s.evaluations.push ⟨.folder place folder, 0, maxDepth⟩ }

/-- A formula reads a member of a folder that has not been looked at and that no expression stands
for.  It executes what evaluating the member executes, in a store where nothing else has been
executed than was before, and nothing besides. -/
theorem formula_reads_one_member {s : Store} {place : Nat} {σ : Session} {folder name key : String}
    {x : Outline.Expression} {member : Name} (hσ : s.sessions[place]? = some σ)
    (alive : σ.alive = true) (formed : σ.outline.WellFormed)
    (hplace : σ.outline.place? folder name = some (.folder key)) (unread : σ.Unread key)
    (hx : x ∈ σ.outline.childExpressions key) (ordinary : Text.lower x.name ∉ Engine.sentinels)
    (hname : Text.lower x.name = Text.lower member.text) (span span' : Span)
    (maxDepth fuel other : Nat) :
    ((s.evaluating place folder maxDepth).listed place σ.outline key).begun other = s.begun other ∧
    (((Engine.ofFuel (fuel + 4)).runFormula (.folder place folder) maxDepth
        (.member span (.name span' name) member)).last s).begun other =
      (((Engine.ofFuel (fuel + 2)).ask (.evaluate place x.key)).last
        ((s.evaluating place folder maxDepth).listed place σ.outline key)).begun other := by
  have hname' : (Engine.ofFuel (fuel + 3)).ask
      (.formula s.evaluations.size [] (.name span' name)) (s.evaluating place folder maxDepth) = _ :=
    Engine.nameValue_run hσ alive Array.getElem?_push_size rfl hplace unread
  obtain ⟨thunk, hfind, hthunk⟩ := formed.find?_listing place hx ordinary hname
    (s.evaluating place folder maxDepth)
  have hrun : (Engine.ofFuel (fuel + 4)).runFormula (.folder place folder) maxDepth
      (.member span (.name span' name) member) s =
      (Engine.ofFuel (fuel + 3)).member
        (.ofEntries (σ.outline.listing place key (s.evaluating place folder maxDepth).thunks.size))
        member.text ((s.evaluating place folder maxDepth).listed place σ.outline key) := by
    show ((Engine.ofFuel (fuel + 3)).ask (.formula s.evaluations.size [] (.name span' name)) >>=
      fun v => (Engine.ofFuel (fuel + 3)).member v member.text) (s.evaluating place folder maxDepth) = _
    rw [Run.bind_run hname']
  have hlisted : ((s.evaluating place folder maxDepth).listed place σ.outline key).sessions[place]? =
      some { σ with
        folderValues := (key, .ofEntries (σ.outline.listing place key s.thunks.size)) ::
          σ.folderValues } := by
    show (s.sessions.modify place _)[place]? = _
    rw [Array.getElem?_modify, if_pos rfl, hσ]
    rfl
  have hlast : ((Engine.ofFuel (fuel + 4)).runFormula (.folder place folder) maxDepth
      (.member span (.name span' name) member)).last s =
      ((Engine.ofFuel (fuel + 2)).force thunk).last
        ((s.evaluating place folder maxDepth).listed place σ.outline key) := by
    have hmember := Engine.last_member (e := Engine.ofFuel (fuel + 3)) hfind
      (s := (s.evaluating place folder maxDepth).listed place σ.outline key)
    unfold Run.last at hmember ⊢
    rw [hrun]
    exact hmember
  refine ⟨Store.begun_listed _ place σ.outline key other, ?_⟩
  rw [hlast]
  unfold Store.begun
  rw [Engine.sessions_force hlisted alive hthunk]

/-! ## Reading in scripts -/

/-- An expression that reads, and a folder with two members. -/
def folderReader (language : Language) (text : String) : Tree :=
  ⟨[("", some [⟨.expression, "r", 1, some language⟩, ⟨.folder, "f", 2, none⟩]),
      ("f", some [⟨.expression, "b", 3, some .script⟩, ⟨.expression, "c", 4, some .script⟩])],
    [("r", some text), ("f/b", some "return true"), ("f/c", some "return false")], 4⟩

theorem ofTree_folderReader (language : Language) (text : String) :
    Outline.ofTree (folderReader language text) =
      ⟨[Outline.root, ⟨"f", "f", ["f"], 2, some ""⟩],
        [⟨"r", "r", ["r"], language, 1, ""⟩, ⟨"f/b", "b", ["f", "b"], .script, 3, "f"⟩,
          ⟨"f/c", "c", ["f", "c"], .script, 4, "f"⟩]⟩ := by
  cases language
  all_goals
    exact (Outline.ofTree_of_folder rfl (by decide) rfl rfl (by decide) rfl).trans rfl

/-- The session of the reader, before it is asked anything. -/
def folderReaderStore : Store :=
  Store.empty.opened (folderReader .formula "f.b") ⟨.standard, [], []⟩ 0

/-- The formula `f.b` executes what evaluating `f/b` executes. -/
theorem formula_reads_member_b :
    (((Engine.ofFuel 9).runFormula (.folder 0 "") 256
        (.member default (.name default "f") ⟨"b", default⟩)).last folderReaderStore).begun 0 =
      (((Engine.ofFuel 7).ask (.evaluate 0 "f/b")).last
        ((folderReaderStore.evaluating 0 "" 256).listed 0
          (.ofTree (folderReader .formula "f.b")) "f")).begun 0 := by
  have houtline := ofTree_folderReader .formula "f.b"
  have hsame : Text.lower "b" = Text.lower (⟨"b", default⟩ : Name).text := rfl
  refine (formula_reads_one_member (x := ⟨"f/b", "b", ["f", "b"], .script, 3, "f"⟩)
    (Store.session_opened Store.empty (folderReader .formula "f.b") ⟨.standard, [], []⟩ 0) rfl
    (Outline.wellFormed_ofTree _) ?_ ?_ ?_ (by decide) hsame default default 256 5 0).2
  · show (Outline.ofTree (folderReader .formula "f.b")).place? "" "f" = _
    rw [houtline]
    decide
  · refine ⟨?_, fun name hname => ?_, rfl⟩
    · show ((Outline.ofTree (folderReader .formula "f.b")).folder? "f").isSome
      rw [houtline]
      decide
    · show (Outline.ofTree (folderReader .formula "f.b")).expression? _ = none
      rw [houtline]
      rcases List.mem_pair.1 hname with rfl | rfl <;> decide
  · show _ ∈ (Outline.ofTree (folderReader .formula "f.b")).childExpressions "f"
    rw [houtline]
    decide

theorem pathKey_r : pathKey "r" = "r" :=
  pathKey_of_name (by decide) (by decide)

/-- The script `return f.b` executes the other member as well, and first. -/
theorem script_reads_all_members :
    (((Engine.ofFuel 14).consult (folderReader .script "return f.b") ⟨.standard, [], []⟩ 0
      [.expression "r"]).last .empty).begun 0 = ["r", "f/c", "f/b"] := by
  rw [Engine.last_consult]
  unfold Engine.query Store.opened Store.opening Session.start
  rw [ofTree_folderReader]
  simp only [pathKey_r, List.mapM_cons, List.mapM_nil]
  decide +kernel

end Workbook
