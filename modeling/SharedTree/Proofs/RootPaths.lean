import Mathlib.Data.List.Perm.Subperm
import Mathlib.Logic.Relation
import SharedTree.Observations

/-! Paths from the root and the order of a walk. The climb from a node passes each
node above it, and ends even where the parents run in a circle. Where they do not,
the path to a node is the path to its parent with the node behind it, and the order
of paths is the order in which a walk comes to the nodes: a node before everything
below it, and all that lies below one sibling before all that lies below a later
one. -/
namespace SharedTree

namespace TreeShape
/-- A node with its position. -/
def step (tree : TreeShape) (h : Handle) : Step := (tree.ordinal h, h)

def IsParent (tree : TreeShape) (p h : Handle) : Prop := tree.parent h = some p

/-- One node is a proper ancestor of another. -/
def LiesAbove (tree : TreeShape) : Handle → Handle → Prop := Relation.TransGen tree.IsParent

def AtOrAbove (tree : TreeShape) : Handle → Handle → Prop := Relation.ReflTransGen tree.IsParent

/-- The parents above a node come to an end. -/
inductive Ends (tree : TreeShape) : Handle → Prop where
  | top {h : Handle} (last : tree.parent h = none) : Ends tree h
  | child {h p : Handle} (next : tree.parent h = some p) (above : Ends tree p) : Ends tree h

/-! ## The climb -/

/-- The steps of a climb that stops where it comes back to a node passed before, and
where there is no parent. -/
inductive Climbs (tree : TreeShape) : List Handle → Handle → List Step → Prop where
  | met {passed : List Handle} {h : Handle} (seen : h ∈ passed) : Climbs tree passed h []
  | top {passed : List Handle} {h : Handle} (new : h ∉ passed) (last : tree.parent h = none) :
      Climbs tree passed h [tree.step h]
  | up {passed : List Handle} {h p : Handle} {steps : List Step} (new : h ∉ passed)
      (next : tree.parent h = some p) (above : Climbs tree (h :: passed) p steps) :
      Climbs tree passed h (tree.step h :: steps)

variable {tree : TreeShape} {h k p : Handle} {passed : List Handle} {steps : List Step}

namespace Climbs

theorem unique (first : tree.Climbs passed h steps) {other : List Step}
    (second : tree.Climbs passed h other) : steps = other := by
  induction first generalizing other with
  | met seen =>
    cases second with
    | met => rfl
    | top new => exact absurd seen new
    | up new => exact absurd seen new
  | top new last =>
    cases second with
    | met seen => exact absurd seen new
    | top => rfl
    | up _ next => cases last.symm.trans next
  | up new next above ih =>
    cases second with
    | met seen => exact absurd seen new
    | top _ last => cases last.symm.trans next
    | up _ again more =>
      cases next.symm.trans again
      rw [ih more]

theorem atOrAbove (climbs : tree.Climbs passed h steps) : ∀ s ∈ steps, tree.AtOrAbove s.2 h := by
  induction climbs with
  | met => simp
  | top =>
    intro s member
    cases List.mem_singleton.mp member
    exact .refl
  | up new next above ih =>
    intro s member
    rcases List.mem_cons.mp member with rfl | member
    · exact .refl
    · exact (ih s member).tail next

theorem avoids (climbs : tree.Climbs passed h steps) : ∀ s ∈ steps, s.2 ∉ passed := by
  induction climbs with
  | met => simp
  | top new =>
    intro s member
    cases List.mem_singleton.mp member
    exact new
  | up new next above ih =>
    intro s member
    rcases List.mem_cons.mp member with rfl | member
    · exact new
    · exact fun seen => ih s member (List.mem_cons_of_mem _ seen)

/-- A climb is not changed by nodes passed that it does not come to. -/
theorem mono (climbs : tree.Climbs passed h steps) {more : List Handle} (kept : passed ⊆ more)
    (apart : ∀ s ∈ steps, s.2 ∉ more) : tree.Climbs more h steps := by
  induction climbs generalizing more with
  | met seen => exact .met (kept seen)
  | top new last => exact .top (apart _ (List.mem_singleton_self _)) last
  | up new next above ih =>
    refine .up (apart _ List.mem_cons_self) next (ih (List.cons_subset_cons _ kept) ?_)
    intro s member seen
    rcases List.mem_cons.mp seen with same | seen
    · exact above.avoids s member (same ▸ List.mem_cons_self)
    · exact apart s (List.mem_cons_of_mem _ member) seen

end Climbs

/-- The climb has room to end: each node passed but the last is listed. -/
theorem climb_climbs {fuel : Nat} (distinct : passed.Nodup) (listed : passed ⊆ tree.nodes)
    (room : tree.nodes.length < fuel + passed.length) :
    tree.Climbs passed h (tree.climb fuel passed h) := by
  induction fuel generalizing passed h with
  | zero =>
    have bound := (List.subperm_of_subset distinct listed).length_le
    omega
  | succ fuel ih =>
    rw [climb]
    split
    · rename_i seen
      exact .met seen
    · rename_i new
      cases next : tree.parent h with
      | none => exact .top new next
      | some p =>
        have known : h ∈ tree.nodes := tree.listed h (by rw [next]; rfl)
        refine .up new next (ih (List.nodup_cons.mpr ⟨new, distinct⟩)
          (List.cons_subset.mpr ⟨known, listed⟩) ?_)
        rw [List.length_cons]
        omega

/-- The path to a node holds every step of the climb from it. -/
theorem climbs_path (tree : TreeShape) (h : Handle) : tree.Climbs [] h (tree.path h).reverse := by
  rw [path, List.reverse_reverse]
  exact climb_climbs List.nodup_nil (List.nil_subset _) (by simp)

theorem path_eq_of_climbs (climbs : tree.Climbs [] h steps) : tree.path h = steps.reverse := by
  rw [← List.reverse_reverse (tree.path h), (tree.climbs_path h).unique climbs]

/-! ## Paths -/

theorem path_top (last : tree.parent h = none) : tree.path h = [tree.step h] :=
  path_eq_of_climbs (.top List.not_mem_nil last)

/-- The path to a node that is not above its own parent goes through the parent. -/
theorem path_below (next : tree.parent h = some p) (outside : ¬ tree.AtOrAbove h p) :
    tree.path h = tree.path p ++ [tree.step h] := by
  have above := tree.climbs_path p
  have apart : ∀ s ∈ (tree.path p).reverse, s.2 ∉ [h] := by
    intro s member same
    exact outside (List.mem_singleton.mp same ▸ above.atOrAbove s member)
  rw [path_eq_of_climbs (.up List.not_mem_nil next (above.mono (List.nil_subset _) apart)),
    List.reverse_cons, List.reverse_reverse]

theorem getLast?_path (tree : TreeShape) (h : Handle) :
    (tree.path h).getLast? = some (tree.step h) := by
  have climbs := tree.climbs_path h
  rw [← List.head?_reverse]
  generalize (tree.path h).reverse = steps at climbs ⊢
  cases climbs with
  | met seen => cases seen
  | top => rfl
  | up => rfl

theorem path_injective (same : tree.path h = tree.path k) : h = k := by
  have last := tree.getLast?_path h
  rw [same, getLast?_path] at last
  exact (congrArg Prod.snd (Option.some.inj last)).symm

namespace Ends

theorem parent (ends : tree.Ends h) (next : tree.parent h = some p) : tree.Ends p := by
  cases ends with
  | top last => cases last.symm.trans next
  | child again above => cases next.symm.trans again; exact above

theorem of_atOrAbove (ends : tree.Ends h) (above : tree.AtOrAbove k h) : tree.Ends k := by
  induction above with
  | refl => exact ends
  | tail _ next ih => exact ih (ends.parent next)

/-- Parents that come to an end do not run in a circle. -/
theorem not_above_self (ends : tree.Ends h) : ¬ tree.LiesAbove h h := by
  induction ends with
  | top last =>
    intro circle
    obtain ⟨k, -, next⟩ := Relation.TransGen.tail'_iff.mp circle
    cases last.symm.trans next
  | child next above ih =>
    intro circle
    obtain ⟨k, up, again⟩ := Relation.TransGen.tail'_iff.mp circle
    cases next.symm.trans again
    exact ih (.head' next up)

theorem path_below (ends : tree.Ends h) (next : tree.parent h = some p) :
    tree.path h = tree.path p ++ [tree.step h] :=
  TreeShape.path_below next fun up => ends.not_above_self (Relation.TransGen.tail' up next)

/-- Each step of a path ends the path to its own node. -/
theorem path_prefix (ends : tree.Ends h) {front back : List Step} {s : Step}
    (whole : tree.path h = front ++ s :: back) :
    tree.AtOrAbove s.2 h ∧ tree.path s.2 = front ++ [s] := by
  induction ends generalizing back with
  | @top h last =>
    have path := path_top last
    rw [whole, List.append_eq_singleton_iff] at path
    simp only [List.cons_ne_nil, and_false, or_false, List.cons.injEq] at path
    obtain ⟨rfl, rfl, rfl⟩ := path
    exact ⟨.refl, path_top last⟩
  | @child h p next above ih =>
    have path := (Ends.child next above).path_below next
    rcases List.eq_nil_or_concat back with rfl | ⟨rest, last, rfl⟩
    · have own := tree.getLast?_path h
      rw [whole, List.getLast?_concat, Option.some.injEq] at own
      subst own
      exact ⟨.refl, whole⟩
    · rw [whole, List.concat_eq_append, ← List.cons_append, ← List.append_assoc] at path
      obtain ⟨up, own⟩ := ih (List.append_inj_left' path rfl).symm
      exact ⟨up.tail next, own⟩

/-- Where a path comes from is known from the parent alone. -/
theorem path_eq (ends : tree.Ends h) :
    tree.path h = (tree.parent h).elim [] tree.path ++ [tree.step h] := by
  cases ends with
  | top last => rw [path_top last, last]; rfl
  | child next above => rw [(Ends.child next above).path_below next, next]; rfl

/-- The parent is the node before the last on a path. -/
theorem parent_eq (ends : tree.Ends h) {front : List Step} {s : Step}
    (whole : tree.path h = front ++ [s]) : tree.parent h = front.getLast?.map (·.2) := by
  rw [ends.path_eq] at whole
  rw [← List.append_inj_left' whole rfl]
  cases next : tree.parent h with
  | none => rfl
  | some p => simp [getLast?_path, step]

/-- A path goes on from the path to any node above. -/
theorem path_append (ends : tree.Ends h) (above : tree.AtOrAbove k h) :
    ∃ back, tree.path h = tree.path k ++ back := by
  induction above with
  | refl => exact ⟨[], (List.append_nil _).symm⟩
  | tail _ next ih =>
    obtain ⟨back, path⟩ := ih (ends.parent next)
    exact ⟨_, by rw [ends.path_below next, path, List.append_assoc]⟩

/-- The path to a node above is shorter. -/
theorem path_append_cons (ends : tree.Ends h) (above : tree.LiesAbove k h) :
    ∃ s back, tree.path h = tree.path k ++ s :: back := by
  obtain ⟨p, up, next⟩ := Relation.TransGen.tail'_iff.mp above
  obtain ⟨back, path⟩ := (ends.parent next).path_append up
  rw [ends.path_below next, path, List.append_assoc]
  cases back with
  | nil => exact ⟨_, _, rfl⟩
  | cons s back => exact ⟨_, _, rfl⟩

end Ends

end TreeShape

/-! ## The order of paths -/

namespace Observations
open TreeShape (Step)

instance : Std.TransCmp compareSteps :=
  inferInstanceAs (Std.TransCmp (compareLex (compareOn Prod.fst) (compareOn Prod.snd)))

instance : Std.LawfulEqCmp compareSteps where
  eq_of_compare {a b} same := by
    obtain ⟨ordinals, handles⟩ := Ordering.then_eq_eq.mp same
    exact Prod.ext (Std.LawfulEqCmp.eq_of_compare ordinals) (Std.LawfulEqCmp.eq_of_compare handles)

instance : Std.TransCmp comparePaths :=
  inferInstanceAs (Std.TransCmp (List.compareLex compareSteps))

instance : Std.LawfulEqCmp comparePaths :=
  inferInstanceAs (Std.LawfulEqCmp (List.compareLex compareSteps))

/-- A path comes before those that continue it and those that turn off later. -/
theorem comparePaths_eq_lt_iff {a b : List Step} :
    comparePaths a b = .lt ↔
      (∃ s back, b = a ++ s :: back) ∨
      ∃ front s t backA backB, a = front ++ s :: backA ∧ b = front ++ t :: backB ∧
        compareSteps s t = .lt := by
  unfold comparePaths
  constructor
  · intro less
    induction a generalizing b with
    | nil =>
      cases b with
      | nil => cases less
      | cons t b => exact .inl ⟨t, b, rfl⟩
    | cons s a ih =>
      cases b with
      | nil => cases less
      | cons t b =>
        rw [List.compareLex_cons_cons, Ordering.then_eq_lt] at less
        rcases less with less | ⟨same, less⟩
        · exact .inr ⟨[], s, t, a, b, rfl, rfl, less⟩
        · cases Std.LawfulEqCmp.eq_of_compare same
          rcases ih less with ⟨t, back, rfl⟩ | ⟨front, t, u, backA, backB, rfl, rfl, turns⟩
          · exact .inl ⟨t, back, rfl⟩
          · exact .inr ⟨s :: front, t, u, backA, backB, rfl, rfl, turns⟩
  · have shared (front a b : List Step) : List.compareLex compareSteps (front ++ a) (front ++ b) =
        List.compareLex compareSteps a b := by
      induction front with
      | nil => rfl
      | cons s front ih =>
        have same : compareSteps s s = .eq := Std.ReflCmp.compare_self
        rw [List.cons_append, List.cons_append, List.compareLex_cons_cons, same, ih]
        rfl
    rintro (⟨s, back, rfl⟩ | ⟨front, s, t, backA, backB, rfl, rfl, less⟩)
    · have own := shared a [] (s :: back)
      rwa [List.append_nil] at own
    · rw [shared, List.compareLex_cons_cons, less]
      rfl

end Observations

namespace TreeShape
open Observations (compareSteps comparePaths comparePaths_eq_lt_iff)

/-- One node comes before another in a walk that visits each node before those below
it, and siblings with all that lies below them in the order of their steps. Nodes
without a parent are siblings of one another. -/
inductive Precedes (tree : TreeShape) : Handle → Handle → Prop where
  | above {h k : Handle} (up : tree.LiesAbove h k) : Precedes tree h k
  | beside {a b h k : Handle} (siblings : tree.parent a = tree.parent b)
      (before : compareSteps (tree.step a) (tree.step b) = .lt)
      (first : tree.AtOrAbove a h) (second : tree.AtOrAbove b k) : Precedes tree h k

variable {tree : TreeShape} {h k : Handle}

theorem step_of_path (tree : TreeShape) {front : List Step} {s : Step}
    (whole : tree.path s.2 = front ++ [s]) : tree.step s.2 = s := by
  have last := tree.getLast?_path s.2
  rw [whole, List.getLast?_concat, Option.some.injEq] at last
  exact last.symm

/-- The order of paths is the order of a walk. -/
theorem precedes_iff (endsH : tree.Ends h) (endsK : tree.Ends k) :
    tree.Precedes h k ↔ comparePaths (tree.path h) (tree.path k) = .lt := by
  rw [comparePaths_eq_lt_iff]
  constructor
  · rintro (up | ⟨siblings, before, first, second⟩)
    · exact .inl (endsK.path_append_cons up)
    · rename_i a b
      obtain ⟨backA, pathH⟩ := endsH.path_append first
      obtain ⟨backB, pathK⟩ := endsK.path_append second
      rw [(endsH.of_atOrAbove first).path_eq, List.append_assoc] at pathH
      rw [(endsK.of_atOrAbove second).path_eq, ← siblings, List.append_assoc] at pathK
      exact .inr ⟨_, _, _, _, _, pathH, pathK, before⟩
  · rintro (⟨s, back, longer⟩ | ⟨front, s, t, backH, backK, pathH, pathK, before⟩)
    · obtain ⟨front, own⟩ := List.getLast?_eq_some_iff.mp (tree.getLast?_path h)
      have through : tree.path k = front ++ tree.step h :: s :: back := by
        rw [longer, own, List.append_assoc]
        rfl
      rcases Relation.reflTransGen_iff_eq_or_transGen.mp (endsK.path_prefix through).1 with
        same | up
      · have length := congrArg List.length longer
        rw [show k = h from same, List.length_append, List.length_cons] at length
        omega
      · exact .above up
    · obtain ⟨upS, pathS⟩ := endsH.path_prefix pathH
      obtain ⟨upT, pathT⟩ := endsK.path_prefix pathK
      have siblings : tree.parent s.2 = tree.parent t.2 := by
        rw [(endsH.of_atOrAbove upS).parent_eq pathS, (endsK.of_atOrAbove upT).parent_eq pathT]
      refine .beside siblings ?_ upS upT
      rwa [tree.step_of_path pathS, tree.step_of_path pathT]

theorem Precedes.asymm (endsH : tree.Ends h) (endsK : tree.Ends k) (first : tree.Precedes h k) :
    ¬ tree.Precedes k h := by
  have swap : comparePaths (tree.path k) (tree.path h) =
      (comparePaths (tree.path h) (tree.path k)).swap := Std.OrientedCmp.eq_swap
  rw [precedes_iff endsH endsK] at first
  rw [precedes_iff endsK endsH, swap, first]
  exact nofun

end TreeShape

end SharedTree
