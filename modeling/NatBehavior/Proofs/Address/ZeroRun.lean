import NatBehavior.Proofs.Address.Text

/-! Which zeros two colons stand for in the text of a version 6 address: those of the longest run,
the first of equals, where it has two groups or more. -/
namespace NatBehavior.Ipv6

variable {groups front back : List UInt16} {n start : Nat}

theorem le_zeroRun_iff : n ≤ zeroRun groups ↔ ∃ back, groups = List.replicate n 0 ++ back := by
  constructor
  · intro h
    refine ⟨groups.drop n, ?_⟩
    rw [← take_zeroRun h, List.take_append_drop]
  · rintro ⟨back, rfl⟩
    have hzeros : ∀ g ∈ List.replicate n (0 : UInt16), g == 0 := by simp
    rw [zeroRun, List.takeWhile_append_of_pos hzeros, List.length_append, List.length_replicate]
    exact Nat.le_add_right n _

/-- The longest run among the first starts, the first of equals. -/
def bestRun (groups : List UInt16) (starts : Nat) : Nat × Nat :=
  (List.range starts).foldl (fun best start =>
    let n := zeroRun (groups.drop start)
    if best.2 < n then (start, n) else best) (0, 0)

theorem bestRun_succ (groups : List UInt16) (starts : Nat) :
    bestRun groups (starts + 1) =
      if (bestRun groups starts).2 < zeroRun (groups.drop starts) then
        (starts, zeroRun (groups.drop starts))
      else bestRun groups starts := by
  rw [bestRun, List.range_succ, List.foldl_append]
  rfl

/-- No start has a longer run, and none in front of the best one has a run as long. -/
theorem bestRun_best (groups : List UInt16) (starts : Nat) :
    (∀ start < starts, zeroRun (groups.drop start) ≤ (bestRun groups starts).2) ∧
    ∀ start < (bestRun groups starts).1,
      zeroRun (groups.drop start) < (bestRun groups starts).2 := by
  induction starts with
  | zero => exact ⟨nofun, nofun⟩
  | succ starts ih =>
    obtain ⟨hall, hfirst⟩ := ih
    rw [bestRun_succ]
    split
    · rename_i hlonger
      have hshort : ∀ start < starts,
          zeroRun (groups.drop start) < zeroRun (groups.drop starts) :=
        fun start hstart => Nat.lt_of_le_of_lt (hall start hstart) hlonger
      refine ⟨fun start hstart => ?_, hshort⟩
      rcases Nat.lt_succ_iff_lt_or_eq.mp hstart with hlt | rfl
      · exact Nat.le_of_lt (hshort start hlt)
      · exact Nat.le_refl _
    · rename_i hshorter
      refine ⟨fun start hstart => ?_, hfirst⟩
      rcases Nat.lt_succ_iff_lt_or_eq.mp hstart with hlt | rfl
      · exact hall start hlt
      · exact Nat.le_of_not_lt hshorter

theorem zeroRun_le_longestZeroRun (h : start < groups.length) :
    zeroRun (groups.drop start) ≤ (longestZeroRun groups).2 :=
  (bestRun_best groups groups.length).1 start h

theorem zeroRun_lt_longestZeroRun (h : start < (longestZeroRun groups).1) :
    zeroRun (groups.drop start) < (longestZeroRun groups).2 :=
  (bestRun_best groups groups.length).2 start h

/-- The zeros between front and back are the longest run of groups, and the first of that length. -/
structure IsLongestRun (groups front : List UInt16) (n : Nat) (back : List UInt16) : Prop where
  split : groups = front ++ List.replicate n 0 ++ back
  longest : ∀ front' n' back', groups = front' ++ List.replicate n' 0 ++ back' → n' ≤ n
  first : ∀ front' back', groups = front' ++ List.replicate n 0 ++ back' →
    front.length ≤ front'.length

theorem le_longestZeroRun (h : groups = front ++ List.replicate n 0 ++ back) :
    n ≤ (longestZeroRun groups).2 := by
  cases n with
  | zero => exact Nat.zero_le _
  | succ n =>
    have hdrop : groups.drop front.length = List.replicate (n + 1) 0 ++ back := by
      rw [h, List.append_assoc, List.drop_left]
    have hstart : front.length < groups.length := by
      rw [h]
      simp
    exact Nat.le_trans (le_zeroRun_iff.mpr ⟨back, hdrop⟩) (zeroRun_le_longestZeroRun hstart)

theorem isLongestRun_longestZeroRun (groups : List UInt16) :
    let run := longestZeroRun groups
    IsLongestRun groups (groups.take run.1) run.2 (groups.drop (run.1 + run.2)) := by
  intro run
  constructor
  · rw [← take_zeroRun (longestZeroRun_le groups), ← List.drop_drop, List.append_assoc,
      List.take_append_drop, List.take_append_drop]
  · intro front' n' back' h
    exact le_longestZeroRun h
  · intro front' back' h
    refine Nat.le_trans (List.length_take_le _ _) (Nat.le_of_not_lt fun hlt => ?_)
    have hdrop : groups.drop front'.length = List.replicate run.2 0 ++ back' := by
      rw [h, List.append_assoc, List.drop_left]
    exact absurd (le_zeroRun_iff.mpr ⟨back', hdrop⟩)
      (Nat.not_le_of_lt (zeroRun_lt_longestZeroRun hlt))

/-- An address that maps none of version 4 is written group by group, the longest run of zeros as
two colons where it has two groups or more. -/
theorem text_of_plain {ip : Ipv6} (hplain : ip.mapped? = none) :
    ∃ front n back, IsLongestRun ip.groups front n back ∧
      ip.text = if n < 2 then joinGroups ip.groups
        else joinGroups front ++ ':' :: ':' :: joinGroups back := by
  refine ⟨_, _, _, isLongestRun_longestZeroRun ip.groups, ?_⟩
  rw [text, hplain]

end NatBehavior.Ipv6
