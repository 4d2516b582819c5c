import Mathlib.Algebra.Order.BigOperators.Group.List
import Mathlib.Algebra.Order.Ring.Nat

/-!
# Searching linked trees

Nodes link to other nodes, and the links below a node are finite (`Links`). `Links.search` is the
worklist loop: take the next pending node, return it when it is what is looked for, otherwise add
its links to the pending nodes. A `Discipline` says where they are added, which decides the order
but not the outcome: `Links.isSome_search` says that the loop returns a node exactly when one that
is looked for can be reached.
-/

set_option autoImplicit false

namespace Oamb.Foundation.TreeSearch

variable {ν : Type}

/-- Links between nodes, finitely many below every node. -/
structure Links (ν : Type) where
  next : ν → List ν
  finite : ∃ size : ν → ℕ, ∀ node, ((next node).map size).sum < size node

/-- Where the links of a node are added to the pending nodes. -/
structure Discipline (ν : Type) where
  insert : List ν → List ν → List ν
  perm : ∀ found pending, (insert found pending).Perm (found ++ pending)

namespace Discipline

/-- The last link is taken next. -/
def stack : Discipline ν where
  insert := fun found pending ↦ found.reverse ++ pending
  perm := fun found pending ↦ (List.reverse_perm found).append_right pending

/-- The links are taken after the pending nodes. -/
def queue : Discipline ν where
  insert := fun found pending ↦ pending ++ found
  perm := fun _ _ ↦ List.perm_append_comm

end Discipline

namespace Links

variable (links : Links ν)

/-- A node can be reached from another along links. -/
def Reaches : ν → ν → Prop := Relation.ReflTransGen fun node child ↦ child ∈ links.next node

variable {links}

theorem reaches_iff {start node : ν} :
    links.Reaches start node ↔ start = node ∨ ∃ child ∈ links.next start, links.Reaches child node := by
  rw [Reaches, Relation.ReflTransGen.cases_head_iff]

/-- What is reached is the start or smaller. -/
theorem Reaches.eq_or_lt {size : ν → ℕ}
    (hsize : ∀ node, ((links.next node).map size).sum < size node) {start node : ν}
    (hreaches : links.Reaches start node) : start = node ∨ size node < size start := by
  induction hreaches with
  | refl => exact Or.inl rfl
  | tail _ hchild ih =>
    have hlt := (List.le_sum_of_mem (List.mem_map_of_mem hchild)).trans_lt (hsize _)
    rcases ih with rfl | hsmaller
    · exact Or.inr hlt
    · exact Or.inr (hlt.trans hsmaller)

/-! ### The worklist loop -/

section Search

variable (discipline : Discipline ν) (found : ν → Bool)

theorem sum_insert_lt {size : ν → ℕ}
    (hsize : ∀ node, ((links.next node).map size).sum < size node) (node : ν) (pending : List ν) :
    ((discipline.insert (links.next node) pending).map size).sum <
      ((node :: pending).map size).sum := by
  rw [((discipline.perm _ _).map size).sum_eq, List.map_append, List.sum_append, List.map_cons,
    List.sum_cons]
  exact Nat.add_lt_add_right (hsize node) _

variable (links)

/-- The first pending node that is looked for, and the links of the others. -/
def search : List ν → Option ν
  | [] => none
  | node :: pending =>
    if found node then some node else search (discipline.insert (links.next node) pending)
  termination_by pending => (pending.map links.finite.choose).sum
  decreasing_by exact sum_insert_lt discipline links.finite.choose_spec node pending

/-- Whether a node that is looked for can be reached. -/
def contains (start : ν) : Bool := (search links discipline found [start]).isSome

variable {links discipline found}

theorem search_cons {node : ν} {pending : List ν} :
    search links discipline found (node :: pending) = if found node then some node
      else search links discipline found (discipline.insert (links.next node) pending) := by
  rw [search]

theorem of_search_eq_some {pending : List ν} {node : ν}
    (hsearch : search links discipline found pending = some node) :
    found node ∧ ∃ start ∈ pending, links.Reaches start node := by
  induction pending using search.induct links discipline found with
  | case1 => simp [search] at hsearch
  | case2 first pending hfound =>
    rw [search_cons, if_pos hfound, Option.some.injEq] at hsearch
    subst hsearch
    exact ⟨hfound, first, List.mem_cons_self, .refl⟩
  | case3 first pending hfound ih =>
    rw [search_cons, if_neg hfound] at hsearch
    obtain ⟨hnode, start, hstart, hreaches⟩ := ih hsearch
    refine ⟨hnode, ?_⟩
    rcases List.mem_append.mp ((discipline.perm _ _).mem_iff.mp hstart) with hchild | hpending
    · exact ⟨first, List.mem_cons_self, reaches_iff.mpr (Or.inr ⟨start, hchild, hreaches⟩)⟩
    · exact ⟨start, List.mem_cons_of_mem _ hpending, hreaches⟩

theorem isSome_search {pending : List ν} : (search links discipline found pending).isSome ↔
    ∃ start ∈ pending, ∃ node, links.Reaches start node ∧ found node := by
  constructor
  · intro hsome
    obtain ⟨node, hsearch⟩ := Option.isSome_iff_exists.mp hsome
    obtain ⟨hfound, start, hstart, hreaches⟩ := of_search_eq_some hsearch
    exact ⟨start, hstart, node, hreaches, hfound⟩
  · intro hreachable
    induction pending using search.induct links discipline found with
    | case1 => simp at hreachable
    | case2 first pending hfound => rw [search_cons, if_pos hfound, Option.isSome_some]
    | case3 first pending hfound ih =>
      rw [search_cons, if_neg hfound]
      apply ih
      obtain ⟨start, hstart, node, hreaches, hnode⟩ := hreachable
      rcases List.mem_cons.mp hstart with rfl | hpending
      · rcases reaches_iff.mp hreaches with rfl | ⟨child, hchild, hbelow⟩
        · exact absurd hnode hfound
        · exact ⟨child, (discipline.perm _ _).mem_iff.mpr (List.mem_append_left _ hchild), node,
            hbelow, hnode⟩
      · exact ⟨start, (discipline.perm _ _).mem_iff.mpr (List.mem_append_right _ hpending), node,
          hreaches, hnode⟩

theorem contains_iff {start : ν} : contains links discipline found start = true ↔
    ∃ node, links.Reaches start node ∧ found node := by
  rw [contains, isSome_search]
  simp

/-- A node contains what is looked for when it is that itself or one of its links contains it. -/
theorem contains_iff_next {start : ν} : contains links discipline found start = true ↔
    found start ∨ ∃ child ∈ links.next start, contains links discipline found child = true := by
  simp only [contains_iff]
  constructor
  · rintro ⟨node, hreaches, hfound⟩
    rcases reaches_iff.mp hreaches with rfl | ⟨child, hchild, hbelow⟩
    · exact Or.inl hfound
    · exact Or.inr ⟨child, hchild, node, hbelow, hfound⟩
  · rintro (hfound | ⟨child, hchild, node, hreaches, hfound⟩)
    · exact ⟨start, .refl, hfound⟩
    · exact ⟨node, reaches_iff.mpr (Or.inr ⟨child, hchild, hreaches⟩), hfound⟩

end Search

end Links

end Oamb.Foundation.TreeSearch
