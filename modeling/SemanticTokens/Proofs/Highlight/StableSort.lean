import SemanticTokens.Delta

/-!
# Stable order of highlights

Places are compared by line and then by column.  Different highlights may
start at the same place, so that a list in order of places is not determined by
its members alone.  It is determined by what starts at each place, in which
order: a list in order has to show the places one after the other.

Sorting keeps the highlights of each place as they are given.  Hence it is the
only way to order a list without exchanging highlights that start together, and
two lists are sorted alike exactly when they agree place by place.
-/

namespace SemanticTokens.Highlight

/-- Whether a line and column come no later than others: the line is earlier,
or it is the same and the column is no later. -/
def NoLater (left right : UInt32 × UInt32) : Prop :=
  left.1 < right.1 ∨ left.1 = right.1 ∧ left.2 ≤ right.2

/-- Whether every highlight starts no later than all those after it. -/
def InOrder (highlights : List Highlight) : Prop :=
  highlights.Pairwise fun left right => NoLater left.position right.position

def startingAt
    (place : UInt32 × UInt32) (highlights : List Highlight) :
    List Highlight :=
  highlights.filter fun highlight => highlight.position = place

/-- Whether a list is another one, put in order without exchanging highlights
that start at the same place. -/
structure IsStableSort (given result : List Highlight) : Prop where
  rearranged : result.Perm given
  inOrder : InOrder result
  tiesKept : ∀ place, startingAt place result = startingAt place given

/-! ## The order of places -/

theorem NoLater.refl
    (place : UInt32 × UInt32) :
    NoLater place place :=
  Or.inr ⟨rfl, UInt32.le_refl place.2⟩

theorem NoLater.trans
    {first second third : UInt32 × UInt32}
    (before : NoLater first second) (after : NoLater second third) :
    NoLater first third := by
  unfold NoLater at before after ⊢
  grind

theorem noLater_total
    (left right : UInt32 × UInt32) :
    NoLater left right ∨ NoLater right left := by
  unfold NoLater
  grind

theorem NoLater.antisymm
    {left right : UInt32 × UInt32}
    (forward : NoLater left right) (backward : NoLater right left) :
    left = right := by
  unfold NoLater at forward backward
  rw [Prod.ext_iff]
  grind

theorem origin_noLater
    (place : UInt32 × UInt32) :
    NoLater (0, 0) place := by
  unfold NoLater
  grind

instance : Trans NoLater NoLater NoLater :=
  ⟨NoLater.trans⟩

theorem startsBy_iff
    (left right : Highlight) :
    startsBy left right = true ↔ NoLater left.position right.position := by
  simp only [startsBy, NoLater, position, Bool.or_eq_true,
    Bool.and_eq_true, decide_eq_true_eq, beq_iff_eq]

/-! ## What starts at one place -/

theorem mem_startingAt_iff
    {place : UInt32 × UInt32} {highlights : List Highlight}
    {highlight : Highlight} :
    highlight ∈ startingAt place highlights ↔
      highlight ∈ highlights ∧ highlight.position = place := by
  rw [startingAt, List.mem_filter, decide_eq_true_eq]

theorem startingAt_cons_self
    (highlight : Highlight) (rest : List Highlight) :
    startingAt highlight.position (highlight :: rest) =
      highlight :: startingAt highlight.position rest := by
  simp [startingAt]

theorem startingAt_cons_of_ne
    {place : UInt32 × UInt32} {highlight : Highlight}
    (elsewhere : highlight.position ≠ place) (rest : List Highlight) :
    startingAt place (highlight :: rest) = startingAt place rest := by
  simp [startingAt, elsewhere]

theorem inOrder_startingAt
    (place : UInt32 × UInt32) (highlights : List Highlight) :
    InOrder (startingAt place highlights) := by
  apply List.pairwise_of_forall_mem_list
  intro left leftMember right rightMember
  rw [(mem_startingAt_iff.mp leftMember).2,
    (mem_startingAt_iff.mp rightMember).2]
  exact NoLater.refl place

theorem mem_of_startingAt_eq
    {left right : List Highlight}
    (samePlaces : ∀ place, startingAt place left = startingAt place right)
    {highlight : Highlight} (member : highlight ∈ left) :
    highlight ∈ right := by
  have here : highlight ∈ startingAt highlight.position left :=
    mem_startingAt_iff.mpr ⟨member, rfl⟩
  rw [samePlaces] at here
  exact (mem_startingAt_iff.mp here).1

theorem startingAt_tail_eq
    {head : Highlight} {left right : List Highlight}
    (samePlaces :
      ∀ place,
        startingAt place (head :: left) = startingAt place (head :: right))
    (place : UInt32 × UInt32) :
    startingAt place left = startingAt place right := by
  have same := samePlaces place
  by_cases here : head.position = place
  · subst place
    rw [startingAt_cons_self, startingAt_cons_self] at same
    exact (List.cons.inj same).2
  · rwa [startingAt_cons_of_ne here, startingAt_cons_of_ne here] at same

theorem noLater_of_mem
    {head highlight : Highlight} {rest : List Highlight}
    (inOrder : InOrder (head :: rest))
    (member : highlight ∈ head :: rest) :
    NoLater head.position highlight.position := by
  rcases List.mem_cons.mp member with rfl | later
  · exact NoLater.refl highlight.position
  · exact (List.pairwise_cons.mp inOrder).1 highlight later

theorem head_eq_of_startingAt_eq
    {leftHead rightHead : Highlight} {left right : List Highlight}
    (leftInOrder : InOrder (leftHead :: left))
    (rightInOrder : InOrder (rightHead :: right))
    (samePlaces :
      ∀ place,
        startingAt place (leftHead :: left) =
          startingAt place (rightHead :: right)) :
    leftHead = rightHead := by
  -- Each head occurs in the other list, so that neither place is earlier.
  have forward : NoLater leftHead.position rightHead.position := by
    apply noLater_of_mem leftInOrder
    exact
      mem_of_startingAt_eq (fun place => (samePlaces place).symm)
        List.mem_cons_self
  have backward : NoLater rightHead.position leftHead.position := by
    apply noLater_of_mem rightInOrder
    exact mem_of_startingAt_eq samePlaces List.mem_cons_self
  have samePlace := forward.antisymm backward
  have sameHere := samePlaces leftHead.position
  rw [startingAt_cons_self, samePlace, startingAt_cons_self] at sameHere
  exact (List.cons.inj sameHere).1

/-- A list in order is determined by what starts at each place. -/
theorem eq_of_startingAt_eq :
    ∀ {left right : List Highlight},
      InOrder left →
      InOrder right →
      (∀ place, startingAt place left = startingAt place right) →
        left = right
  | [], [], _, _, _ =>
      rfl
  | [], head :: _, _, _, samePlaces => by
      have member : head ∈ [] :=
        mem_of_startingAt_eq (fun place => (samePlaces place).symm)
          List.mem_cons_self
      cases member
  | head :: _, [], _, _, samePlaces => by
      have member : head ∈ [] :=
        mem_of_startingAt_eq samePlaces List.mem_cons_self
      cases member
  | leftHead :: left, rightHead :: right, leftInOrder, rightInOrder,
      samePlaces => by
      have sameHead :=
        head_eq_of_startingAt_eq leftInOrder rightInOrder samePlaces
      subst rightHead
      rw [eq_of_startingAt_eq (List.pairwise_cons.mp leftInOrder).2
        (List.pairwise_cons.mp rightInOrder).2
        (startingAt_tail_eq samePlaces)]

/-! ## Sorting -/

private theorem startsBy_trans
    (first second third : Highlight)
    (before : startsBy first second = true)
    (after : startsBy second third = true) :
    startsBy first third = true := by
  rw [startsBy_iff] at before after ⊢
  exact before.trans after

private theorem startsBy_total
    (left right : Highlight) :
    (startsBy left right || startsBy right left) = true := by
  rw [Bool.or_eq_true, startsBy_iff, startsBy_iff]
  exact noLater_total left.position right.position

theorem inOrder_sort
    (highlights : List Highlight) :
    InOrder (sort highlights) :=
  (List.pairwise_mergeSort startsBy_trans startsBy_total highlights).imp
    fun ordered => (startsBy_iff _ _).mp ordered

/-- Sorting keeps the highlights of a place in the given order. -/
theorem startingAt_sort
    (place : UInt32 × UInt32) (highlights : List Highlight) :
    startingAt place (sort highlights) = startingAt place highlights := by
  -- Being in order already, they are found in the result as they stand, and
  -- there are no more of them.
  have kept : (startingAt place highlights).Sublist (sort highlights) :=
    List.sublist_mergeSort startsBy_trans startsBy_total
      ((inOrder_startingAt place highlights).imp
        fun ordered => (startsBy_iff _ _).mpr ordered)
      List.filter_sublist
  have keptHere :
      (startingAt place highlights).Sublist
        (startingAt place (sort highlights)) := by
    have filtered :=
      kept.filter fun highlight => decide (highlight.position = place)
    simpa only [startingAt, List.filter_filter, Bool.and_self] using filtered
  have sameCount :
      (startingAt place highlights).length =
        (startingAt place (sort highlights)).length :=
    ((List.mergeSort_perm highlights startsBy).filter _).length_eq.symm
  exact (keptHere.eq_of_length sameCount).symm

theorem isStableSort_sort
    (highlights : List Highlight) :
    IsStableSort highlights (sort highlights) where
  rearranged := List.mergeSort_perm highlights startsBy
  inOrder := inOrder_sort highlights
  tiesKept place := startingAt_sort place highlights

theorem IsStableSort.eq_sort
    {given result : List Highlight}
    (stable : IsStableSort given result) :
    result = sort given := by
  apply eq_of_startingAt_eq stable.inOrder (inOrder_sort given)
  intro place
  rw [stable.tiesKept, startingAt_sort]

/-- Lists are sorted alike exactly when they agree place by place. -/
theorem sort_eq_sort_iff
    (left right : List Highlight) :
    sort left = sort right ↔
      ∀ place, startingAt place left = startingAt place right := by
  constructor
  · intro sameResult place
    rw [← startingAt_sort place left, sameResult, startingAt_sort]
  · intro samePlaces
    apply eq_of_startingAt_eq (inOrder_sort left) (inOrder_sort right)
    intro place
    rw [startingAt_sort, startingAt_sort, samePlaces]

end SemanticTokens.Highlight
