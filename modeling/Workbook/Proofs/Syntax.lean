/-
The nodes of syntax trees, and where they lie.

A tree is well placed in a text if each node of it has a sound span, which contains the spans of its
children (`Node.Nested`).  A node is built from children that lie between two of its parts, whose spans
its own span covers (`Placed.merge`, `Within.before`, `Within.after`).
-/
import Workbook.Formula
import Workbook.Proofs.Source
import Workbook.Script

namespace Workbook

/-- What has a span in the trees of both languages. -/
inductive Node
  | name (n : Name)
  | formula (e : Formula.Expr)
  | expr (e : Script.Expr)
  | stmt (s : Script.Stmt)
  | function (f : Script.Function)
  | script (p : Script.Program)

/-- What is one node. -/
class Single (α : Type) where
  node : α → Node

export Single (node)

instance : Single Name := ⟨.name⟩

instance : Single Formula.Expr := ⟨.formula⟩

instance : Single Script.Expr := ⟨.expr⟩

instance : Single Script.Stmt := ⟨.stmt⟩

instance : Single Script.Function := ⟨.function⟩

instance : Single Script.Program := ⟨.script⟩

/-- The nodes that a part of a tree consists of, without what is in them. -/
class Parts (α : Type) where
  nodes : α → List Node

export Parts (nodes)

namespace Parts

variable {α : Type} [Parts α]

instance {β : Type} [Single β] : Parts β := ⟨fun b => [node b]⟩

instance : Parts (List α) := ⟨fun as => as.flatMap nodes⟩

instance : Parts (Option α) := ⟨fun a => a.toList.flatMap nodes⟩

instance : Parts (Piece α) where
  nodes
    | .text _ => []
    | .hole e => nodes e

instance : Parts (Item α) where
  nodes
    | .one e | .spread e => nodes e

instance : Parts (Entry α) where
  nodes
    | .field key value => nodes key ++ nodes value
    | .spread e => nodes e

instance : Parts Script.Body where
  nodes
    | .block body => nodes body
    | .expr e => nodes e

end Parts

/-- The children of an expression of a formula. -/
def Formula.Expr.children : Formula.Expr → List Node
  | .null _ | .boolean _ _ | .integer _ _ | .big _ _ | .float _ _ | .string _ _ | .name _ _ => []
  | .interpolation _ pieces => nodes pieces
  | .list _ items => nodes items
  | .record _ entries => nodes entries
  | .member _ e key => nodes e ++ nodes key
  | .index _ e key => nodes e ++ nodes key
  | .call _ callee arguments => nodes callee ++ nodes arguments
  | .binary _ _ left right | .coalesce _ left right => nodes left ++ nodes right
  | .unary _ _ operand => nodes operand
  | .branch _ condition yes no => nodes condition ++ nodes yes ++ nodes no
  | .binding _ key value body => nodes key ++ nodes value ++ nodes body
  | .lambda _ parameters body => nodes parameters ++ nodes body
  | .parenthesized _ inner => nodes inner

/-- The children of an expression of a script. -/
def Script.Expr.children : Script.Expr → List Node
  | .undefined _ | .null _ | .boolean _ _ | .number _ _ | .string _ _ | .name _ _ => []
  | .template _ pieces => nodes pieces
  | .array _ items => nodes items
  | .object _ entries => nodes entries
  | .member _ e key => nodes e ++ nodes key
  | .index _ e key => nodes e ++ nodes key
  | .call _ callee arguments => nodes callee ++ nodes arguments
  | .unary _ _ operand => nodes operand
  | .update _ _ _ target => nodes target
  | .binary _ _ left right | .logical _ _ left right => nodes left ++ nodes right
  | .conditional _ condition yes no => nodes condition ++ nodes yes ++ nodes no
  | .assign _ _ target value => nodes target ++ nodes value
  | .function f => nodes f

/-- The children of a statement. -/
def Script.Stmt.children : Script.Stmt → List Node
  | .declaration _ _ key value => nodes key ++ nodes value
  | .function f => nodes f
  | .branch _ condition yes no => nodes condition ++ nodes yes ++ nodes no
  | .whileLoop _ condition body => nodes condition ++ nodes body
  | .forLoop _ start condition step body => nodes start ++ nodes condition ++ nodes step ++ nodes body
  | .forOf _ _ key items body => nodes key ++ nodes items ++ nodes body
  | .returns _ value => nodes value
  | .breaks _ | .continues _ | .empty _ => []
  | .throws _ value => nodes value
  | .block _ body => nodes body
  | .expr e => nodes e

namespace Node

def span : Node → Span
  | name n => n.span
  | formula e => e.span
  | expr e => e.span
  | stmt s => s.span
  | function f => f.span
  | script p => p.span

def children : Node → List Node
  | name _ => []
  | formula e => e.children
  | expr e => e.children
  | stmt s => s.children
  | function f => nodes f.name ++ nodes f.parameters ++ nodes f.body
  | script p => nodes p.body

/-- The node has a sound span, which contains the spans of its children; and so has each of these. -/
inductive Nested (src : Source) : Node → Prop
  | intro {n : Node} (sound : src.Sound n.span)
    (inside : ∀ c ∈ n.children, n.span.start ≤ c.span.start ∧ c.span.stop ≤ n.span.stop)
    (below : ∀ c ∈ n.children, Nested src c) : Nested src n

/-- The node is part of the tree below another one, or that one. -/
inductive IsIn (m : Node) : Node → Prop
  | self : IsIn m m
  | child {n c : Node} (hc : c ∈ n.children) (h : IsIn m c) : IsIn m n

section

variable {src : Source} {m n : Node}

theorem Nested.sound (h : n.Nested src) : src.Sound n.span := by
  cases h with
  | intro sound => exact sound

theorem Nested.inside (h : n.Nested src) {c : Node} (hc : c ∈ n.children) :
    n.span.start ≤ c.span.start ∧ c.span.stop ≤ n.span.stop := by
  cases h with
  | intro _ inside => exact inside c hc

/-- All of a tree is nested. -/
theorem Nested.isIn (h : n.Nested src) (hm : m.IsIn n) : m.Nested src := by
  induction hm with
  | self => exact h
  | child hc _ ih =>
    cases h with
    | intro _ _ below => exact ih (below _ hc)

end

end Node

/-! ## Between two places -/

/-- A tree between two bytes of a text. -/
structure Placed (src : Source) (lo hi : Nat) (n : Node) : Prop where
  nested : n.Nested src
  le_start : lo ≤ n.span.start
  stop_le : n.span.stop ≤ hi

namespace Placed

variable {src : Source} {lo hi lo' hi' : Nat} {n : Node} {a b : Span}

theorem mono (h : Placed src lo hi n) (hlo : lo' ≤ lo) (hhi : hi ≤ hi') : Placed src lo' hi' n :=
  ⟨h.nested, Nat.le_trans hlo h.le_start, Nat.le_trans h.stop_le hhi⟩

/-- A node with its children inside of it. -/
theorem intro (sound : src.Sound n.span) (hlo : lo ≤ n.span.start) (hhi : n.span.stop ≤ hi)
    (children : ∀ c ∈ n.children, Placed src n.span.start n.span.stop c) : Placed src lo hi n where
  nested := .intro sound (fun c hc => ⟨(children c hc).le_start, (children c hc).stop_le⟩)
    fun c hc => (children c hc).nested
  le_start := hlo
  stop_le := hhi

/-- A node whose span covers two spans, and whose children lie from the first one to the second
one. -/
theorem merge (hn : n.span = a.merge b) (ha : src.Sound a) (hb : src.Sound b)
    (hlo : lo ≤ a.start ∧ lo ≤ b.start) (hhi : a.stop ≤ hi ∧ b.stop ≤ hi)
    (children : ∀ c ∈ n.children, Placed src a.start b.stop c) : Placed src lo hi n := by
  refine .intro (hn ▸ ha.merge hb) ?_ ?_ fun c hc => (children c hc).mono ?_ ?_
  all_goals rw [hn]
  · rw [Span.merge_start]
    omega
  · rw [Span.merge_stop]
    omega
  · rw [Span.merge_start]
    omega
  · rw [Span.merge_stop]
    omega

/-- The nodes of two parts. -/
theorem both {ns ms : List Node} (hns : ∀ n ∈ ns, Placed src lo hi n)
    (hms : ∀ n ∈ ms, Placed src lo hi n) : ∀ n ∈ ns ++ ms, Placed src lo hi n :=
  List.forall_mem_append.2 ⟨hns, hms⟩

end Placed

/-- The nodes of a part of a tree lie between two bytes of a text. -/
def Within {α : Type} [Parts α] (src : Source) (lo hi : Nat) (a : α) : Prop :=
  ∀ n ∈ nodes a, Placed src lo hi n

namespace Within

section

variable {α : Type} [Parts α] {src : Source} {lo hi lo' hi' : Nat} {a : α} {as bs : List α}

theorem mono (h : Within src lo hi a) (hlo : lo' ≤ lo) (hhi : hi ≤ hi') : Within src lo' hi' a :=
  fun n hn => (h n hn).mono hlo hhi

theorem nil : Within src lo hi ([] : List α) :=
  fun _ hn => by cases hn

theorem cons (ha : Within src lo hi a) (has : Within src lo hi as) : Within src lo hi (a :: as) :=
  Placed.both ha has

theorem append (has : Within src lo hi as) (hbs : Within src lo hi bs) :
    Within src lo hi (as ++ bs) := by
  have hnodes : nodes (as ++ bs) = nodes as ++ nodes bs := List.flatMap_append
  unfold Within
  rw [hnodes]
  exact .both has hbs

theorem none : Within src lo hi (none : Option α) :=
  fun _ hn => by cases hn

theorem some_iff : Within src lo hi (some a) ↔ Within src lo hi a := by
  simp [Within, nodes]

theorem some (h : Within src lo hi a) : Within src lo hi (some a) :=
  some_iff.2 h

theorem hole (h : Within src lo hi a) : Within src lo hi (Piece.hole a) := h

end

/-! ## Nodes of parts -/

section

variable {α β : Type} [Single α] [Single β] {src : Source} {lo m hi : Nat} {a : α} {b : β}
  {first last : Span} {ns : List Node}

theorem single_iff : Within src lo hi a ↔ Placed src lo hi (node a) :=
  List.forall_mem_singleton

theorem of_placed (h : Placed src lo hi (node a)) : Within src lo hi a :=
  single_iff.2 h

theorem placed (h : Within src lo hi a) : Placed src lo hi (node a) :=
  single_iff.1 h

theorem sound (h : Within src lo hi a) : src.Sound (node a).span :=
  h.placed.nested.sound

@[grind →] theorem bounds (h : Within src lo hi a) : lo ≤ (node a).span.start ∧
    (node a).span.start ≤ (node a).span.stop ∧ (node a).span.stop ≤ hi :=
  ⟨h.placed.le_start, h.sound.le, h.placed.stop_le⟩

/-- A tree lies on its own span. -/
theorem self (h : Within src lo hi a) :
    Within src (node a).span.start (node a).span.stop a :=
  of_placed ⟨h.placed.nested, Nat.le_refl _, Nat.le_refl _⟩

/-- A node that is as its only child. -/
theorem wrap (h : Within src lo hi a) (hspan : (node b).span = (node a).span)
    (hchildren : (node b).children = nodes a) : Within src lo hi b := by
  refine of_placed (.intro (hspan ▸ h.sound) (hspan ▸ h.placed.le_start)
    (hspan ▸ h.placed.stop_le) ?_)
  rw [hspan, hchildren]
  exact h.self

/-- A node from a span before a tree to the end of the tree. -/
theorem before (ha : Within src m hi a) (hfirst : src.Sound first) (hlo : lo ≤ first.start)
    (hm : first.stop ≤ m) (hspan : (node b).span = first.merge (node a).span)
    (hchildren : (node b).children = ns ++ nodes a)
    (hns : ∀ n ∈ ns, Placed src first.start m n) : Within src lo hi b := by
  have hle := hfirst.le
  obtain ⟨hstart, hordered, hstop⟩ := ha.bounds
  refine of_placed (.merge hspan hfirst ha.sound (by omega) (by omega) ?_)
  rw [hchildren]
  exact .both (fun n hn => (hns n hn).mono (Nat.le_refl _) (by omega))
    (ha.self.mono (by omega) (Nat.le_refl _))

/-- A node from a span to the end of its only child. -/
theorem around (ha : Within src m hi a) (hfirst : src.Sound first) (hlo : lo ≤ first.start)
    (hm : first.stop ≤ m) (hspan : (node b).span = first.merge (node a).span)
    (hchildren : (node b).children = nodes a) : Within src lo hi b :=
  ha.before hfirst hlo hm hspan (hchildren.trans (List.nil_append _).symm) fun _ hn => by cases hn

/-- A node from a tree to the end of a span after it. -/
theorem after (ha : Within src lo m a) (hlast : src.Sound last) (hm : m ≤ last.start)
    (hhi : last.stop ≤ hi) (hspan : (node b).span = (node a).span.merge last)
    (hchildren : (node b).children = nodes a ++ ns)
    (hns : ∀ n ∈ ns, Placed src m last.stop n) : Within src lo hi b := by
  have hle := hlast.le
  obtain ⟨hstart, hordered, hstop⟩ := ha.bounds
  refine of_placed (.merge hspan ha.sound hlast (by omega) (by omega) ?_)
  rw [hchildren]
  exact .both (ha.self.mono (Nat.le_refl _) (by omega))
    fun n hn => (hns n hn).mono (by omega) (Nat.le_refl _)

end

@[simp, grind =] theorem span_name (n : Name) : (node n).span = n.span := rfl

@[simp, grind =] theorem span_formula (e : Formula.Expr) : (node e).span = e.span := rfl

@[simp, grind =] theorem span_expr (e : Script.Expr) : (node e).span = e.span := rfl

end Within

end Workbook
