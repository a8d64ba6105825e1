import Mathlib.Tactic
import Mathlib.Data.List.Sort

/-! Ranges of a linear order, and the maximal ranges of a list of them: what remains
when ranges that overlap or are adjacent are merged until nothing can be merged.
Empty ranges count: one at the end of another range is adjacent to it. The maximal
ranges do not depend on the order of the list, and a pass over the ranges by
increasing start can build them at the back of a list. -/

namespace ModbusPp.Foundation

variable {α ι : Type*} [LinearOrder α] {lo hi : ι → α}

/-- `ys` are the maximal ranges of `xs`, in increasing order. The range of an element
goes from `lo` up to `hi`. -/
structure MaximalRanges (lo hi : ι → α) (xs ys : List ι) : Prop where
  apart : ys.Pairwise fun y z => hi y < lo z
  held : ∀ x ∈ xs, ∃ y ∈ ys, lo y ≤ lo x ∧ hi x ≤ hi y
  starts : ∀ y ∈ ys, ∃ x ∈ xs, lo x = lo y ∧ hi x ≤ hi y
  filled : ∀ y ∈ ys, ∀ c, lo y ≤ c → c < hi y → ∃ x ∈ xs, lo x ≤ c ∧ c < hi x

/-- Both ends of a range. -/
def ends (lo hi : ι → α) (y : ι) : α × α := (lo y, hi y)

namespace MaximalRanges

variable {xs xs' ys ys' : List ι} {x y z : ι}

theorem nil : MaximalRanges lo hi [] [] where
  apart := List.Pairwise.nil
  held _ hx := absurd hx List.not_mem_nil
  starts _ hy := absurd hy List.not_mem_nil
  filled _ hy := absurd hy List.not_mem_nil

theorem perm (h : MaximalRanges lo hi xs ys) (hperm : xs.Perm xs') :
    MaximalRanges lo hi xs' ys where
  apart := h.apart
  held x hx := h.held x (hperm.mem_iff.mpr hx)
  starts y hy := by simpa only [hperm.mem_iff] using h.starts y hy
  filled y hy c := by simpa only [hperm.mem_iff] using h.filled y hy c

/-- A range behind all others is maximal itself. -/
theorem push (h : MaximalRanges lo hi xs ys) (hbehind : ∀ y ∈ ys, hi y < lo x) :
    MaximalRanges lo hi (xs ++ [x]) (ys ++ [x]) where
  apart := by
    refine List.pairwise_append.mpr ⟨h.apart, List.pairwise_singleton _ _, ?_⟩
    intro y hy z hz
    rw [List.mem_singleton.mp hz]
    exact hbehind y hy
  held z hz := by
    rcases List.mem_append.mp hz with hz | hz
    · obtain ⟨y, hy, hin⟩ := h.held z hz
      exact ⟨y, List.mem_append_left _ hy, hin⟩
    · exact ⟨x, by simp, by simp [List.mem_singleton.mp hz]⟩
  starts y hy := by
    rcases List.mem_append.mp hy with hy | hy
    · obtain ⟨z, hz, hin⟩ := h.starts y hy
      exact ⟨z, List.mem_append_left _ hz, hin⟩
    · exact ⟨x, by simp, by simp [List.mem_singleton.mp hy]⟩
  filled y hy c hle hlt := by
    rcases List.mem_append.mp hy with hy | hy
    · obtain ⟨z, hz, hin⟩ := h.filled y hy c hle hlt
      exact ⟨z, List.mem_append_left _ hz, hin⟩
    · obtain rfl := List.mem_singleton.mp hy
      exact ⟨y, by simp, hle, hlt⟩

/-- A range that starts in the last one, or at its end, moves the end of that. -/
theorem extend (h : MaximalRanges lo hi xs (ys ++ [y])) (hle : lo y ≤ lo x) (hmeets : lo x ≤ hi y)
    (hlo : lo z = lo y) (hhi : hi z = max (hi y) (hi x)) :
    MaximalRanges lo hi (xs ++ [x]) (ys ++ [z]) where
  apart := by
    obtain ⟨hys, -, hlast⟩ := List.pairwise_append.mp h.apart
    refine List.pairwise_append.mpr ⟨hys, List.pairwise_singleton _ _, ?_⟩
    intro w hw z' hz'
    rw [List.mem_singleton.mp hz', hlo]
    exact hlast w hw y (List.mem_singleton_self y)
  held w hw := by
    rcases List.mem_append.mp hw with hw | hw
    · obtain ⟨y', hy', hstart, hend⟩ := h.held w hw
      rcases List.mem_append.mp hy' with hy' | hy'
      · exact ⟨y', List.mem_append_left _ hy', hstart, hend⟩
      · obtain rfl := List.mem_singleton.mp hy'
        exact ⟨z, by simp, hlo ▸ hstart, hhi ▸ hend.trans (le_max_left _ _)⟩
    · obtain rfl := List.mem_singleton.mp hw
      exact ⟨z, by simp, hlo ▸ hle, hhi ▸ le_max_right _ _⟩
  starts w hw := by
    rcases List.mem_append.mp hw with hw | hw
    · obtain ⟨x', hx', hin⟩ := h.starts w (List.mem_append_left _ hw)
      exact ⟨x', List.mem_append_left _ hx', hin⟩
    · obtain rfl := List.mem_singleton.mp hw
      obtain ⟨x', hx', hstart, hend⟩ := h.starts y (by simp)
      exact ⟨x', List.mem_append_left _ hx', hlo ▸ hstart, hhi ▸ hend.trans (le_max_left _ _)⟩
  filled w hw c hstart hend := by
    rcases List.mem_append.mp hw with hw | hw
    · obtain ⟨x', hx', hin⟩ := h.filled w (List.mem_append_left _ hw) c hstart hend
      exact ⟨x', List.mem_append_left _ hx', hin⟩
    · obtain rfl := List.mem_singleton.mp hw
      rw [hlo] at hstart
      rw [hhi] at hend
      rcases lt_or_ge c (hi y) with hold | hnew
      · obtain ⟨x', hx', hin⟩ := h.filled y (by simp) c hstart hold
        exact ⟨x', List.mem_append_left _ hx', hin⟩
      · have hc : c < hi x := (lt_max_iff.mp hend).resolve_left hnew.not_gt
        exact ⟨x, by simp, hmeets.trans hnew, hc⟩

/-! ### There is one list of maximal ranges -/

theorem eq_of_shared (h : MaximalRanges lo hi xs ys) (hy : y ∈ ys) (hz : z ∈ ys) (hyz : lo y ≤ hi z)
    (hzy : lo z ≤ hi y) : y = z := by
  have hpair : ys.Pairwise fun y z => hi y < lo z ∨ hi z < lo y := h.apart.imp Or.inl
  have hsymm : Std.Symm fun y z => hi y < lo z ∨ hi z < lo y := ⟨fun _ _ => Or.symm⟩
  by_contra hne
  rcases hpair.forall hy hz hne with hlt | hlt
  · exact hlt.not_ge hzy
  · exact hlt.not_ge hyz

theorem within_of_meets (h : MaximalRanges lo hi xs ys) (hx : x ∈ xs)
    (hy : y ∈ ys) (hxy : lo x ≤ hi y) (hyx : lo y ≤ hi x) : lo y ≤ lo x ∧ hi x ≤ hi y := by
  obtain ⟨z, hz, hstart, hend⟩ := h.held x hx
  obtain rfl := h.eq_of_shared hz hy (hstart.trans hxy) (hyx.trans hend)
  exact ⟨hstart, hend⟩

theorem hi_le_of_meets (h : MaximalRanges lo hi xs ys) (h' : MaximalRanges lo hi xs ys')
    (hy : y ∈ ys) (hz : z ∈ ys') (hyz : lo y ≤ hi z) (hproper : lo z ≤ hi z) : hi y ≤ hi z := by
  by_contra hlt
  -- what covers the end of `z` would reach beyond it
  obtain ⟨x, hx, hstart, hend⟩ := h.filled y hy (hi z) hyz (lt_of_not_ge hlt)
  exact ((h'.within_of_meets hx hz hstart (hproper.trans hend.le)).2.trans_lt hend).false

variable (hproper : ∀ x, lo x ≤ hi x)
include hproper

theorem hi_eq_of_meets (h : MaximalRanges lo hi xs ys) (h' : MaximalRanges lo hi xs ys')
    (hy : y ∈ ys) (hz : z ∈ ys') (hyz : lo y ≤ hi z) (hzy : lo z ≤ hi y) : hi y = hi z :=
  le_antisymm (h.hi_le_of_meets h' hy hz hyz (hproper z))
    (h'.hi_le_of_meets h hz hy hzy (hproper y))

theorem lo_le_of_meets (h : MaximalRanges lo hi xs ys) (h' : MaximalRanges lo hi xs ys')
    (hy : y ∈ ys) (hz : z ∈ ys') (hyz : lo y ≤ hi z) (hzy : lo z ≤ hi y) : lo y ≤ lo z := by
  obtain ⟨x, hx, hstart, -⟩ := h'.starts z hz
  obtain ⟨w, hw, hwx, hxw⟩ := h.held x hx
  have hzw : lo z ≤ hi w := hstart ▸ (hproper x).trans hxw
  have hwz : lo w ≤ lo z := hstart ▸ hwx
  have hends : hi w = hi y :=
    (hi_eq_of_meets hproper h h' hw hz (hwz.trans (hproper z)) hzw).trans
      (hi_eq_of_meets hproper h h' hy hz hyz hzy).symm
  obtain rfl := h.eq_of_shared hw hy (hends ▸ hproper w) (hends ▸ hproper y)
  exact hwz

theorem mem_ends (h : MaximalRanges lo hi xs ys) (h' : MaximalRanges lo hi xs ys') (hy : y ∈ ys) :
    ends lo hi y ∈ ys'.map (ends lo hi) := by
  obtain ⟨x, hx, hstart, hend⟩ := h.starts y hy
  obtain ⟨z, hz, hzx, hxz⟩ := h'.held x hx
  have hyz : lo y ≤ hi z := hstart ▸ (hproper x).trans hxz
  have hzy : lo z ≤ hi y := hzx.trans ((hproper x).trans hend)
  have hlo := le_antisymm (lo_le_of_meets hproper h h' hy hz hyz hzy)
    (lo_le_of_meets hproper h' h hz hy hzy hyz)
  refine List.mem_map.mpr ⟨z, hz, ?_⟩
  rw [ends, ends, hlo, hi_eq_of_meets hproper h h' hy hz hyz hzy]

/-- The ends of the maximal ranges are determined by the ranges. -/
theorem ends_unique (h : MaximalRanges lo hi xs ys) (h' : MaximalRanges lo hi xs ys') :
    ys.map (ends lo hi) = ys'.map (ends lo hi) := by
  have hsub {zs zs' : List ι} (h : MaximalRanges lo hi xs zs) (h' : MaximalRanges lo hi xs zs') :
      zs.map (ends lo hi) ⊆ zs'.map (ends lo hi) := by
    intro p hp
    obtain ⟨z, hz, rfl⟩ := List.mem_map.mp hp
    exact mem_ends hproper h h' hz
  have hsorted {zs : List ι} (h : MaximalRanges lo hi xs zs) :
      (zs.map (ends lo hi)).Pairwise fun p q => p.1 < q.1 :=
    List.pairwise_map.mpr (h.apart.imp fun {y _} hyz => (hproper y).trans_lt hyz)
  have : Std.Irrefl fun p q : α × α => p.1 < q.1 := ⟨fun p => lt_irrefl p.1⟩
  have : Std.Antisymm fun p q : α × α => p.1 < q.1 := ⟨fun p q hpq hqp => absurd hqp hpq.not_gt⟩
  exact List.Subset.antisymm_of_pairwise (hsorted h) (hsorted h') (hsub h h') (hsub h' h)

end MaximalRanges

end ModbusPp.Foundation
