/-
What the caches of a session hold.

An expression has its result in one place, but its value in two more: in the lazy entry of
its folder, once that was forced, and among the imports.  Both may be filled while the
expression is being executed, by something that it reads.  Then they keep the failure that
was found at that moment, and keep it even when the expression itself comes to a value
(`caches_disagree`).  In all other cases they hold the value of the result
(`caches_agree_or_circular`), so always if no circular reference was found.
-/
import Mathlib
import Workbook.Proofs.Outline.Crawl
import Workbook.Proofs.Session.Query

namespace Workbook

/-- A value that a session keeps for an expression apart from its result: in the entry of a
folder, or among the imports. -/
inductive Session.Cached (s : Store) (σ : Session) (x : Outline.Expression) : Value → Prop
  | entry {folder : String} {es : Entries} {t : Nat} {v : Value}
      (hf : σ.folderValues.lookup folder = some (.ofEntries es))
      (hx : x ∈ σ.outline.childExpressions folder) (ht : es.find? x.name = some (.lazy t))
      (hv : s.thunks[t]? = some (.done v)) : Cached s σ x v
  | import {v : Value} (hx : x ∈ σ.outline.expressions) (hv : σ.imports.lookup x.key = some v) :
      Cached s σ x v

theorem Session.Cached.mem {s : Store} {σ : Session} {x : Outline.Expression} {v : Value} :
    σ.Cached s x v → x ∈ σ.outline.expressions
  | .entry _ hx _ _ => (List.mem_filter.1 hx).1
  | .import hx _ => hx

namespace Ledger

variable {place : Nat} {o : Outline} {w : Ledger} {s : Store} {σ : Session}

/-- Whatever is kept for an expression is something that it may come to. -/
theorem settles_of_cached (ho : o.WellFormed) (h : w.Holds place o s) (hw : w.Agrees place o σ)
    {x : Outline.Expression} {v : Value} (hc : σ.Cached s x v) : w.Settles o x.key v := by
  cases hc with
  | entry hf hx ht hv =>
    rw [hw.outline] at hx
    obtain ⟨es, hes, hlists⟩ := hw.folders _ _ (Keyed.mem_of_lookup hf)
    cases hes
    obtain ⟨e, he, hslot⟩ := Option.map_eq_some_iff.1 ht
    have hname : Text.lower e.1 = Text.lower x.name := by simpa using List.find?_some he
    obtain ⟨t', ht', ⟨y, hy, hn, hm⟩ | ⟨f, hf, hn, -⟩⟩ := hlists.entry (List.mem_of_find?_eq_some he)
    · obtain rfl : y = x := ho.eq_of_name hy hx (by rw [hn, hname])
      rw [hslot] at ht'
      cases ht'
      exact h.done _ _ _ hv hm
    · exact absurd (by rw [hn, hname]) (ho.name_ne hx hf)
  | «import» hx hv =>
    rw [hw.outline] at hx
    exact hw.imports _ _ (Keyed.mem_of_lookup hv) (by rw [ho.find hx]; rfl)

end Ledger

/-- Between queries, what a session keeps for an expression that has a result is the value
of this result, or the failure of having been read while it was being executed; the latter
only if a circular reference was found. -/
theorem caches_agree_or_circular (fuel : Nat) (tree : Tree) (options : Options) (time : Float)
    (qs : List Query) (s : Store) :
    ((Engine.ofFuel fuel).consult tree options time qs).Yields s fun (place, _) s' =>
      ∃ σ, s'.sessions[place]? = some σ ∧ ∀ x v r, σ.Cached s' x v →
        σ.results.lookup x.key = some r →
        v = r.outcome.toValue ∨ 0 < σ.stats.circularDetections ∧ v = x.circular.toValue := by
  refine ⟨?_, Engine.consult_total fuel tree options time qs s⟩
  rintro ⟨place, answers⟩ s' h
  obtain ⟨w, hw, hF⟩ := Engine.consult_holds h
  obtain ⟨σ, hσ, hag⟩ := hw.session
  have ho := Outline.wellFormed_ofTree tree
  refine ⟨σ, hσ, fun x v r hc hr => ?_⟩
  have hfind := ho.find (hag.outline ▸ hc.mem)
  cases Ledger.settles_of_cached ho hw hag hc with
  | result hr' =>
    have hr' := Keyed.lookup_of_mem (hw.once_session hF hσ).1.nodup (hag.results ▸ hr')
    rw [hr'] at hr
    cases hr
    exact .inl rfl
  | circular hx hpos =>
    rw [hfind] at hx
    cases hx
    exact .inr ⟨hag.detections ▸ hpos, rfl⟩
  | absent hx =>
    rw [hfind] at hx
    cases hx

/-! ## A formula that reads its own entry -/

/-- A workbook with one formula, which compares the folder that it is in with itself. -/
def selfReading : Tree :=
  Tree.empty.addExpression "f/c" .formula "f == f"

theorem selfReading_eq : selfReading =
    ⟨[("", some [⟨.folder, "f", 1, none⟩]),
      ("f", some [⟨.expression, "c", 2, some .formula⟩])],
      [("f/c", some "f == f")], 2⟩ := by
  have hparts : pathParts "f/c" = ["f", "c"] :=
    pathParts_path (by decide : ∀ n ∈ ["f", "c"], Outline.isName n = true)
  have hfolder : pathParts (Tree.path ["f"]) = ["f"] := pathParts_path (by decide)
  unfold selfReading
  simp only [Tree.addExpression, hparts, List.getLast?, List.getLast, List.dropLast, Tree.addFolder,
    hfolder]
  rfl

theorem ofTree_selfReading : Outline.ofTree selfReading =
    ⟨[Outline.root, ⟨"f", "f", ["f"], 1, some ""⟩],
      [⟨"f/c", "c", ["f", "c"], .formula, 2, "f"⟩]⟩ := by
  rw [selfReading_eq]
  exact (Outline.ofTree_of_folder rfl (by decide) rfl rfl (by decide) rfl).trans rfl

theorem pathKey_selfReading : pathKey "f/c" = "f/c" :=
  pathKey_of_lower (by decide : ∀ n ∈ ["f", "c"], Outline.isName n = true) (by decide)

/-- The value in the entry of an expression, if it was forced. -/
def Session.forced? (s : Store) (σ : Session) (x : Outline.Expression) : Option Value :=
  match σ.folderValues.lookup x.parent with
  | some (.mapping es none) =>
    match Entries.find? es x.name with
    | some (.lazy t) =>
      match s.thunks[t]? with
      | some (.done v) => some v
      | _ => none
    | _ => none
  | _ => none

theorem Session.cached_of_forced {s : Store} {σ : Session} {x : Outline.Expression} {v : Value}
    (hx : x ∈ σ.outline.expressions) (h : σ.forced? s x = some v) : σ.Cached s x v := by
  unfold forced? at h
  split at h
  case h_1 es hf =>
    split at h
    case h_1 t ht =>
      split at h
      case h_1 v' hv =>
        cases h
        exact .entry hf (List.mem_filter.2 ⟨hx, beq_self_eq_true _⟩) ht hv
      case h_2 => cases h
    case h_2 => cases h
  case h_2 => cases h

/-- Whether an expression has a value, but a failure in its entry. -/
def Session.clashes (s : Store) (σ : Session) (x : Outline.Expression) : Bool :=
  match σ.forced? s x, σ.results.lookup x.key with
  | some (.error ..), some ⟨_, .value _ (.boolean _)⟩ => true
  | _, _ => false

/-- The formula has a value, but its entry was forced while it was being executed. -/
theorem selfReading_clashes :
    (match (Engine.ofFuel 6).consult selfReading ⟨.standard, [], []⟩ 0 [.expression "f/c"]
        .empty with
      | .ok (place, _) s' =>
        s'.sessions[place]?.any fun σ => σ.outline.expressions.any (σ.clashes s')
      | .error .. => false) = true := by
  unfold Engine.consult Run.newSession Run.newSessionWith
  simp only [ofTree_selfReading, List.mapM_cons, List.mapM_nil, Engine.query, pathKey_selfReading]
  rw [selfReading_eq]
  decide +kernel

/-- What a session keeps for an expression need not be the value of its result. -/
theorem caches_disagree :
    ¬ ((Engine.ofFuel 6).consult selfReading ⟨.standard, [], []⟩ 0 [.expression "f/c"]).Yields
      .empty fun (place, _) s' => ∃ σ, s'.sessions[place]? = some σ ∧ ∀ x v r, σ.Cached s' x v →
        σ.results.lookup x.key = some r → v = r.outcome.toValue := by
  intro h
  have clash := selfReading_clashes
  split at clash
  case h_2 => cases clash
  case h_1 place answers s' hrun =>
    obtain ⟨σ, hσ, agree⟩ := h.value _ _ hrun
    rw [hσ, Option.any_some, List.any_eq_true] at clash
    obtain ⟨x, hx, clash⟩ := clash
    unfold Session.clashes at clash
    split at clash
    case h_1 hforced hr => cases agree x _ _ (Session.cached_of_forced hx hforced) hr
    case h_2 => cases clash

end Workbook
