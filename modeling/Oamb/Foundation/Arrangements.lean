import Mathlib.Data.List.Nodup

/-!
# Arrangements

Hosts may bring a guest, whom they refer to by a name. `arrange` lists the hosts in their order,
each guest behind the first host that refers to it, and the guests whom no host refers to at the
end. Hosts keep their order (`hosts_arrange`), every guest is listed once (`guests_arrange`), and
`exists_placed` and `exists_last` say where it stands.
-/

set_option autoImplicit false

namespace Oamb.Foundation.Arrangements

variable {α α' β β' κ : Type} [DecidableEq κ] {reference : α → Option κ} {name : β → κ}

/-- The hosts of a list. -/
def hostsIn (entries : List (α ⊕ β)) : List α := entries.filterMap Sum.getLeft?

/-- The guests of a list. -/
def guestsIn (entries : List (α ⊕ β)) : List β := entries.filterMap Sum.getRight?

@[simp] theorem hostsIn_inl (host : α) (entries : List (α ⊕ β)) :
    hostsIn (.inl host :: entries) = host :: hostsIn entries := rfl

@[simp] theorem hostsIn_inr (guest : β) (entries : List (α ⊕ β)) :
    hostsIn (.inr guest :: entries) = hostsIn entries := rfl

@[simp] theorem guestsIn_inl (host : α) (entries : List (α ⊕ β)) :
    guestsIn (.inl host :: entries) = guestsIn entries := rfl

@[simp] theorem guestsIn_inr (guest : β) (entries : List (α ⊕ β)) :
    guestsIn (.inr guest :: entries) = guest :: guestsIn entries := rfl

theorem hostsIn_map_inr (guests : List β) : hostsIn (guests.map (.inr : β → α ⊕ β)) = [] := by
  rw [hostsIn, List.filterMap_map]
  exact List.filterMap_eq_nil_iff.mpr fun _ _ ↦ rfl

theorem guestsIn_map_inr (guests : List β) :
    guestsIn (guests.map (.inr : β → α ⊕ β)) = guests := by
  rw [guestsIn, List.filterMap_map]
  exact List.filterMap_some

/-- A list has its hosts and its guests. -/
theorem perm_hosts_guests (entries : List (α ⊕ β)) :
    entries.Perm ((hostsIn entries).map .inl ++ (guestsIn entries).map .inr) := by
  induction entries with
  | nil => exact List.Perm.refl _
  | cons entry entries ih =>
    cases entry with
    | inl host => exact ih.cons _
    | inr guest => exact (ih.cons _).trans List.perm_middle.symm

/-- The guest that a host brings, unless it was brought before. -/
def guestOf (name : β → κ) (guests : List β) (seen : List κ) (wanted : Option κ) : Option β :=
  wanted.bind fun key ↦ if key ∈ seen then none else guests.find? fun guest ↦ name guest = key

/-- The hosts, each with the guest that it brings, and then the guests that are left. -/
def arrange (reference : α → Option κ) (name : β → κ) (guests : List β) :
    List κ → List α → List (α ⊕ β)
  | seen, [] => (guests.filter fun guest ↦ name guest ∉ seen).map .inr
  | seen, host :: hosts =>
    match guestOf name guests seen (reference host) with
    | none => .inl host :: arrange reference name guests seen hosts
    | some guest =>
      .inl host :: .inr guest :: arrange reference name guests (seen ++ [name guest]) hosts

variable {guests : List β} {seen : List κ} {hosts : List α} {host : α} {guest : β}

theorem guestOf_eq_some (hnodup : (guests.map name).Nodup) {wanted : Option κ} :
    guestOf name guests seen wanted = some guest ↔
      wanted = some (name guest) ∧ name guest ∉ seen ∧ guest ∈ guests := by
  unfold guestOf
  constructor
  · intro hguest
    obtain ⟨key, hkey, hfound⟩ := Option.bind_eq_some_iff.mp hguest
    split at hfound
    · exact nomatch hfound
    · next hseen =>
      have hname : name guest = key :=
        of_decide_eq_true (List.find?_some (p := fun other ↦ name other = key) hfound)
      exact ⟨hname ▸ hkey, hname ▸ hseen, List.mem_of_find?_eq_some hfound⟩
  · rintro ⟨rfl, hseen, hmem⟩
    rw [Option.bind_some, if_neg hseen]
    cases hfind : guests.find? fun other ↦ name other = name guest with
    | none => exact absurd (decide_eq_true rfl) (List.find?_eq_none.mp hfind guest hmem)
    | some other =>
      have hname : name other = name guest :=
        of_decide_eq_true (List.find?_some (p := fun other ↦ name other = name guest) hfind)
      rw [List.inj_on_of_nodup_map hnodup (List.mem_of_find?_eq_some hfind) hmem hname]

theorem arrange_cons_of_none (hguest : guestOf name guests seen (reference host) = none) :
    arrange reference name guests seen (host :: hosts) =
      .inl host :: arrange reference name guests seen hosts := by
  rw [arrange, hguest]

theorem arrange_cons_of_some (hguest : guestOf name guests seen (reference host) = some guest) :
    arrange reference name guests seen (host :: hosts) =
      .inl host :: .inr guest ::
        arrange reference name guests (seen ++ [name guest]) hosts := by
  rw [arrange, hguest]

/-! ### Everything is listed once -/

/-- The hosts keep their order. -/
theorem hosts_arrange : hostsIn (arrange reference name guests seen hosts) = hosts := by
  induction hosts generalizing seen with
  | nil => exact hostsIn_map_inr _
  | cons host hosts ih =>
    cases hguest : guestOf name guests seen (reference host) with
    | none => rw [arrange_cons_of_none hguest, hostsIn_inl, ih]
    | some guest => rw [arrange_cons_of_some hguest, hostsIn_inl, hostsIn_inr, ih]

/-- Every guest that was not brought before is listed once. -/
theorem guests_arrange (hnodup : (guests.map name).Nodup) :
    (guestsIn (arrange reference name guests seen hosts)).Perm
      (guests.filter fun guest ↦ name guest ∉ seen) := by
  induction hosts generalizing seen with
  | nil =>
    rw [arrange, guestsIn_map_inr]
  | cons host hosts ih =>
    cases hguest : guestOf name guests seen (reference host) with
    | none =>
      rw [arrange_cons_of_none hguest, guestsIn_inl]
      exact ih
    | some guest =>
      obtain ⟨-, hseen, hmem⟩ := (guestOf_eq_some hnodup).mp hguest
      rw [arrange_cons_of_some hguest, guestsIn_inl, guestsIn_inr]
      refine (ih.cons guest).trans ?_
      have hguests := List.Nodup.of_map name hnodup
      refine (List.perm_ext_iff_of_nodup (List.nodup_cons.mpr ⟨?_, hguests.filter _⟩)
        (hguests.filter _)).mpr fun other ↦ ?_
      · simp
      · simp only [List.mem_cons, List.mem_filter, decide_eq_true_eq, List.mem_append,
          List.not_mem_nil, or_false, not_or]
        constructor
        · rintro (rfl | ⟨hother, hnot, -⟩)
          · exact ⟨hmem, hseen⟩
          · exact ⟨hother, hnot⟩
        · rintro ⟨hother, hnot⟩
          by_cases hname : name other = name guest
          · exact .inl (List.inj_on_of_nodup_map hnodup hother hmem hname)
          · exact .inr ⟨hother, hnot, hname⟩

/-! ### Where a guest stands -/

/-- A guest that a host refers to stands behind the first host that does. -/
theorem exists_placed (hnodup : (guests.map name).Nodup) (hguest : guest ∈ guests)
    (hseen : name guest ∉ seen) {earlier later : List α}
    (hfirst : ∀ other ∈ earlier, reference other ≠ some (name guest))
    (hhost : reference host = some (name guest)) :
    ∃ before after, arrange reference name guests seen (earlier ++ host :: later) =
      before ++ .inl host :: .inr guest :: after ∧ hostsIn before = earlier := by
  induction earlier generalizing seen with
  | nil =>
    have hbrought : guestOf name guests seen (reference host) = some guest :=
      (guestOf_eq_some hnodup).mpr ⟨hhost, hseen, hguest⟩
    exact ⟨[], _, arrange_cons_of_some hbrought, rfl⟩
  | cons first earlier ih =>
    obtain ⟨hother, hrest⟩ := List.forall_mem_cons.mp hfirst
    rw [List.cons_append]
    cases hbrought : guestOf name guests seen (reference first) with
    | none =>
      obtain ⟨before, after, harrange, hbefore⟩ := ih hseen hrest
      refine ⟨.inl first :: before, after, ?_, ?_⟩
      · rw [arrange_cons_of_none hbrought, harrange, List.cons_append]
      · rw [hostsIn_inl, hbefore]
    | some brought =>
      obtain ⟨hreference, -, -⟩ := (guestOf_eq_some hnodup).mp hbrought
      have hdiffer : name guest ∉ seen ++ [name brought] := by
        rw [List.mem_append, List.mem_singleton, not_or]
        exact ⟨hseen, fun hsame ↦ hother (hsame ▸ hreference)⟩
      obtain ⟨before, after, harrange, hbefore⟩ := ih hdiffer hrest
      refine ⟨.inl first :: .inr brought :: before, after, ?_, ?_⟩
      · rw [arrange_cons_of_some hbrought, harrange, List.cons_append, List.cons_append]
      · rw [hostsIn_inl, hostsIn_inr, hbefore]

/-- A guest that no host refers to stands behind all hosts. -/
theorem exists_last (hnodup : (guests.map name).Nodup) (hguest : guest ∈ guests)
    (hseen : name guest ∉ seen) (hnone : ∀ host ∈ hosts, reference host ≠ some (name guest)) :
    ∃ before after, arrange reference name guests seen hosts = before ++ .inr guest :: after ∧
      hostsIn after = [] := by
  induction hosts generalizing seen with
  | nil =>
    have hmem : guest ∈ guests.filter fun other ↦ name other ∉ seen :=
      List.mem_filter.mpr ⟨hguest, decide_eq_true hseen⟩
    obtain ⟨before, after, hsplit⟩ := List.append_of_mem hmem
    refine ⟨before.map .inr, after.map .inr, ?_, ?_⟩
    · rw [arrange, hsplit, List.map_append, List.map_cons]
    · exact hostsIn_map_inr _
  | cons host hosts ih =>
    obtain ⟨hother, hrest⟩ := List.forall_mem_cons.mp hnone
    cases hbrought : guestOf name guests seen (reference host) with
    | none =>
      obtain ⟨before, after, harrange, hafter⟩ := ih hseen hrest
      refine ⟨.inl host :: before, after, ?_, hafter⟩
      rw [arrange_cons_of_none hbrought, harrange, List.cons_append]
    | some brought =>
      obtain ⟨hreference, -, -⟩ := (guestOf_eq_some hnodup).mp hbrought
      have hdiffer : name guest ∉ seen ++ [name brought] := by
        rw [List.mem_append, List.mem_singleton, not_or]
        exact ⟨hseen, fun hsame ↦ hother (hsame ▸ hreference)⟩
      obtain ⟨before, after, harrange, hafter⟩ := ih hdiffer hrest
      refine ⟨.inl host :: .inr brought :: before, after, ?_, hafter⟩
      rw [arrange_cons_of_some hbrought, harrange, List.cons_append, List.cons_append]

/-! ### Related arrangements -/

section Related

variable {reference' : α' → Option κ} {name' : β' → κ} {hosts' : List α'} {guests' : List β'}
  {R : α → α' → Prop} {S : β → β' → Prop}

theorem forall₂_filter (hguests : List.Forall₂ S guests guests')
    (hnames : ∀ guest guest', S guest guest' → name guest = name' guest') :
    List.Forall₂ S (guests.filter fun guest ↦ name guest ∉ seen)
      (guests'.filter fun guest ↦ name' guest ∉ seen) := by
  induction hguests with
  | nil => exact .nil
  | @cons guest guest' rest rest' hguest hrest ih =>
    rw [List.filter_cons, List.filter_cons, ← hnames _ _ hguest]
    split
    · exact .cons hguest ih
    · exact ih

theorem rel_guestOf (seen : List κ) (hguests : List.Forall₂ S guests guests')
    (hnames : ∀ guest guest', S guest guest' → name guest = name' guest') (wanted : Option κ) :
    Option.Rel S (guestOf name guests seen wanted) (guestOf name' guests' seen wanted) := by
  cases wanted with
  | none => exact .none
  | some key =>
    unfold guestOf
    rw [Option.bind_some, Option.bind_some]
    split
    · exact .none
    · induction hguests with
      | nil => exact .none
      | @cons guest guest' rest rest' hguest hrest ih =>
        rw [List.find?_cons, List.find?_cons, ← hnames _ _ hguest]
        by_cases hname : name guest = key
        · rw [decide_eq_true hname]
          exact .some hguest
        · rw [decide_eq_false hname]
          exact ih

/-- Related hosts and guests with the same names are arranged alike. -/
theorem forall₂_arrange (hhosts : List.Forall₂ R hosts hosts')
    (hguests : List.Forall₂ S guests guests')
    (hreferences : ∀ host host', R host host' → reference host = reference' host')
    (hnames : ∀ guest guest', S guest guest' → name guest = name' guest') :
    List.Forall₂ (Sum.LiftRel R S) (arrange reference name guests seen hosts)
      (arrange reference' name' guests' seen hosts') := by
  induction hhosts generalizing seen with
  | nil =>
    rw [arrange, arrange, List.forall₂_map_left_iff, List.forall₂_map_right_iff]
    exact (forall₂_filter hguests hnames).imp fun _ _ hguest ↦ .inr hguest
  | @cons host host' rest rest' hhost hrest ih =>
    have hbrought := rel_guestOf seen hguests hnames (reference host)
    rw [arrange, arrange, ← hreferences _ _ hhost]
    generalize guestOf name guests seen (reference host) = first at hbrought ⊢
    generalize guestOf name' guests' seen (reference host) = second at hbrought ⊢
    cases hbrought with
    | none => exact .cons (.inl hhost) ih
    | @some guest guest' hguest =>
      refine .cons (.inl hhost) (.cons (.inr hguest) ?_)
      rw [← hnames _ _ hguest]
      exact ih

end Related

end Oamb.Foundation.Arrangements
