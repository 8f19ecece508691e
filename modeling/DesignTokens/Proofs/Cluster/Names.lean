/-
# DesignTokens.Proofs.Cluster.Names -- the search for a flat name ends

A leaf asks for a name, and while that name is taken the next number is tried behind it.  Nothing gets
smaller on the way, so the loop is written down here as it is, with no bound on its rounds (`Search`).

What ends it is a count.  The names that are tried all differ (`candidate_injective`), so of those that
turned out to be taken there are at most as many as there are taken names (`length_ge_of_candidates_mem`).
Where the loop ends `free` ends as well, within its bound (`free_eq_candidate`), and the name is the one that
a rule without a loop gives: the bare stem, the hyphenated name, or the least free number behind that
(`Chosen`, `search_ends`).
-/
import DesignTokens.Cluster.Flatten
import Mathlib.Data.List.Nodup
import Mathlib.Data.List.Perm.Subperm

namespace DesignTokens

set_option autoImplicit false

namespace FlatName

/-! ## Candidates -/

theorem numbered_injective (name : String) {m n : Nat} (same : numbered name m = numbered name n) :
    m = n := by
  have sameText : toString m = toString n := (String.append_right_inj (name ++ "-")).1 same
  have sameDigits : Nat.toDigits 10 m = Nat.toDigits 10 n := by
    simpa only [Nat.toString_eq_repr, Nat.toList_repr] using congrArg String.toList sameText
  rw [← @Nat.ofDigitChars_ten_toDigits m, sameDigits, Nat.ofDigitChars_ten_toDigits]

theorem numbered_ne_self (name : String) (n : Nat) : numbered name n ≠ name := by
  intro same
  have lengths := congrArg String.length same
  simp only [numbered, String.length_append] at lengths
  have hyphen : "-".length = 1 := rfl
  omega

/-- The names that are tried one after the other: the wanted one, then those with the numbers from two on. -/
def candidate (name : String) : Nat → String
  | 0 => name
  | k + 1 => numbered name (k + 2)

theorem candidate_injective (name : String) : Function.Injective (candidate name) := by
  intro j k same
  cases j with
  | zero =>
      cases k with
      | zero => rfl
      | succ k => exact absurd same.symm (numbered_ne_self name _)
  | succ j =>
      cases k with
      | zero => exact absurd same (numbered_ne_self name _)
      | succ k =>
          have := numbered_injective name same
          omega

/-- Candidates that are taken are so many taken names. -/
theorem length_ge_of_candidates_mem {taken : List String} {name : String} {k : Nat}
    (allTaken : ∀ j < k, candidate name j ∈ taken) : k ≤ taken.length := by
  have nodup : ((List.range k).map (candidate name)).Nodup :=
    List.nodup_range.map (candidate_injective name)
  have subset : (List.range k).map (candidate name) ⊆ taken := by
    intro c mem
    obtain ⟨j, inRange, rfl⟩ := List.mem_map.1 mem
    exact allTaken j (List.mem_range.1 inRange)
  simpa using (List.subperm_of_subset nodup subset).length_le

/-- The bounded search passes by taken names only, and ends at a taken one only at its bound. -/
theorem firstFree_eq_first (taken : List String) (name : String) (fuel n : Nat) :
    ∃ k, n ≤ k ∧ firstFree taken name fuel n = numbered name k ∧
      (∀ m, n ≤ m → m < k → numbered name m ∈ taken) ∧ (k < n + fuel → numbered name k ∉ taken) := by
  induction fuel generalizing n with
  | zero => exact ⟨n, Nat.le_refl n, rfl, fun m low high => by omega, fun within => by omega⟩
  | succ fuel ih =>
      rw [firstFree]
      split
      · rename_i here
        obtain ⟨k, above, ends, passed, isFree⟩ := ih (n + 1)
        refine ⟨k, by omega, ends, fun m low high => ?_, fun within => isFree (by omega)⟩
        rcases Nat.eq_or_lt_of_le low with rfl | later
        · exact List.contains_iff_mem.1 here
        · exact passed m later high
      · rename_i isFree
        exact ⟨n, Nat.le_refl n, rfl, fun m low high => by omega,
          fun _ isTaken => isFree (List.contains_iff_mem.2 isTaken)⟩

/-- The free name is the first candidate that is not taken.  The bound of the search is out of reach: with
all candidates up to it taken, there would be more of them than taken names. -/
theorem free_eq_candidate (taken : List String) (name : String) :
    ∃ k, free taken name = candidate name k ∧ (∀ j < k, candidate name j ∈ taken) ∧
      candidate name k ∉ taken := by
  unfold free
  split
  · rename_i isTaken
    obtain ⟨k, two_le, ends, passed, isFree⟩ := firstFree_eq_first taken name taken.length 2
    obtain ⟨k, rfl⟩ := Nat.exists_eq_add_of_le' two_le
    have earlier : ∀ j < k + 1, candidate name j ∈ taken := by
      intro j below
      cases j with
      | zero => exact List.contains_iff_mem.1 isTaken
      | succ j => exact passed (j + 2) (by omega) (by omega)
    have few := length_ge_of_candidates_mem earlier
    exact ⟨k + 1, ends, earlier, isFree (by omega)⟩
  · rename_i isFree
    exact ⟨0, rfl, nofun, fun isTaken => isFree (List.contains_iff_mem.2 isTaken)⟩

/-- **No name is given out twice.** -/
theorem free_not_mem (taken : List String) (name : String) : free taken name ∉ taken := by
  obtain ⟨k, ends, -, isFree⟩ := free_eq_candidate taken name
  rwa [ends]

/-! ## The loop -/

/-- The loop, with the candidate that is tried now and the number that is tried next.  It ends at `result`
after it has tried `tries` names. -/
inductive Search (taken : List String) (name : String) : String → Nat → Nat → String → Prop where
  | stop {now : String} {next : Nat} (isFree : now ∉ taken) : Search taken name now next 1 now
  | again {now result : String} {next tries : Nat} (isTaken : now ∈ taken)
      (rest : Search taken name (numbered name next) (next + 1) tries result) :
      Search taken name now next (tries + 1) result

variable {taken : List String} {name : String}

/-- There is one way for the loop to go. -/
theorem Search.unique {now result result' : String} {next tries tries' : Nat}
    (search : Search taken name now next tries result) (search' : Search taken name now next tries' result') :
    tries = tries' ∧ result = result' := by
  induction search generalizing tries' with
  | stop isFree =>
      cases search' with
      | stop => exact ⟨rfl, rfl⟩
      | again isTaken => exact absurd isTaken isFree
  | again isTaken _ ih =>
      cases search' with
      | stop isFree => exact absurd isTaken isFree
      | again _ rest' =>
          obtain ⟨rfl, rfl⟩ := ih rest'
          exact ⟨rfl, rfl⟩

/-- From any candidate on the loop goes to the first one that is free. -/
theorem search_candidate {first steps last : Nat} (ends : first + steps = last)
    (isFree : candidate name last ∉ taken)
    (passed : ∀ j, first ≤ j → j < last → candidate name j ∈ taken) :
    Search taken name (candidate name first) (first + 2) (steps + 1) (candidate name last) := by
  induction steps generalizing first with
  | zero =>
      obtain rfl : first = last := ends
      exact .stop isFree
  | succ steps ih =>
      have rest : Search taken name (candidate name (first + 1)) (first + 1 + 2) (steps + 1)
          (candidate name last) := ih (by omega) fun j low below => passed j (by omega) below
      exact .again (passed first (Nat.le_refl first) (by omega)) rest

/-! ## The rule -/

/-- The name of a leaf, told without a loop: the bare stem for a default child if it is free, else the
hyphenated name if that is free, else the one with the least number behind it that is. -/
inductive Chosen (taken : List String) (stem key : String) : String → Prop where
  | bare (isDefault : Key.isDefault key = true) (isFree : stem ∉ taken) : Chosen taken stem key stem
  | hyphenated (noBare : Key.isDefault key = true → stem ∈ taken)
      (isFree : Leaf.hyphenated stem key ∉ taken) : Chosen taken stem key (Leaf.hyphenated stem key)
  | numbered {n : Nat} (noBare : Key.isDefault key = true → stem ∈ taken)
      (isTaken : Leaf.hyphenated stem key ∈ taken) (two_le : 2 ≤ n)
      (least : ∀ m, 2 ≤ m → m < n → numbered (Leaf.hyphenated stem key) m ∈ taken)
      (isFree : numbered (Leaf.hyphenated stem key) n ∉ taken) :
      Chosen taken stem key (numbered (Leaf.hyphenated stem key) n)

variable {stem key : String}

theorem wanted_eq_stem (isDefault : Key.isDefault key = true) (isFree : stem ∉ taken) :
    wanted taken stem key = stem := by
  simp [wanted, isDefault, isFree]

theorem wanted_eq_hyphenated (noBare : Key.isDefault key = true → stem ∈ taken) :
    wanted taken stem key = Leaf.hyphenated stem key := by
  unfold wanted
  refine if_neg fun both => ?_
  simp only [Bool.and_eq_true, Bool.not_eq_true', List.contains_eq_mem, decide_eq_false_iff_not] at both
  exact both.2 (noBare both.1)

/-- The free name is the only candidate that is free while all before it are taken. -/
theorem eq_free_of_first {k : Nat} (isFree : candidate name k ∉ taken)
    (passed : ∀ j < k, candidate name j ∈ taken) : candidate name k = free taken name := by
  obtain ⟨l, ends, passed', isFree'⟩ := free_eq_candidate taken name
  rw [ends]
  rcases Nat.lt_trichotomy k l with below | rfl | above
  · exact absurd (passed' k below) isFree
  · rfl
  · exact absurd (passed l above) isFree'

/-- The rule gives the name that is free. -/
theorem Chosen.eq_free {chosen : String} (rule : Chosen taken stem key chosen) :
    chosen = free taken (wanted taken stem key) := by
  cases rule with
  | bare isDefault isFree =>
      rw [wanted_eq_stem isDefault isFree]
      exact eq_free_of_first (k := 0) isFree nofun
  | hyphenated noBare isFree =>
      rw [wanted_eq_hyphenated noBare]
      exact eq_free_of_first (k := 0) isFree nofun
  | @numbered n noBare isTaken two_le least isFree =>
      rw [wanted_eq_hyphenated noBare]
      obtain ⟨n, rfl⟩ := Nat.exists_eq_add_of_le' two_le
      refine eq_free_of_first (k := n + 1) isFree fun j below => ?_
      cases j with
      | zero => exact isTaken
      | succ j => exact least (j + 2) (by omega) (by omega)

/-- The name that is free is given by the rule. -/
theorem chosen_free (taken : List String) (stem key : String) :
    Chosen taken stem key (free taken (wanted taken stem key)) := by
  by_cases bare : Key.isDefault key = true ∧ stem ∉ taken
  · rw [wanted_eq_stem bare.1 bare.2, ← eq_free_of_first (k := 0) bare.2 nofun]
    exact .bare bare.1 bare.2
  · have noBare : Key.isDefault key = true → stem ∈ taken :=
      fun isDefault => not_not.1 fun isFree => bare ⟨isDefault, isFree⟩
    rw [wanted_eq_hyphenated noBare]
    obtain ⟨k, ends, passed, isFree⟩ := free_eq_candidate taken (Leaf.hyphenated stem key)
    rw [ends]
    cases k with
    | zero => exact .hyphenated noBare isFree
    | succ k =>
        refine .numbered noBare (passed 0 (Nat.succ_pos k)) (Nat.le_add_left 2 k) (fun m low high => ?_) isFree
        obtain ⟨m, rfl⟩ := Nat.exists_eq_add_of_le' low
        exact passed (m + 1) (by omega)

/-- **The search for a flat name ends.**  It tries at most one name more than there are taken ones, ends at
a name that is not taken, and this is the name that the rule gives. -/
theorem search_ends (taken : List String) (stem key : String) :
    (∃ tries ≤ taken.length + 1, ∀ tries' result,
      Search taken (wanted taken stem key) (wanted taken stem key) 2 tries' result ↔
        tries' = tries ∧ result = free taken (wanted taken stem key)) ∧
      free taken (wanted taken stem key) ∉ taken ∧
      ∀ chosen, Chosen taken stem key chosen ↔ chosen = free taken (wanted taken stem key) := by
  refine ⟨?_, free_not_mem taken _, fun chosen => ⟨Chosen.eq_free, ?_⟩⟩
  · obtain ⟨k, ends, passed, isFree⟩ := free_eq_candidate taken (wanted taken stem key)
    rw [ends]
    have search : Search taken (wanted taken stem key) (wanted taken stem key) 2 (k + 1)
        (candidate (wanted taken stem key) k) :=
      search_candidate (Nat.zero_add k) isFree fun j _ below => passed j below
    refine ⟨k + 1, Nat.succ_le_succ (length_ge_of_candidates_mem passed), fun tries result => ?_⟩
    constructor
    · exact fun other => other.unique search
    · rintro ⟨rfl, rfl⟩
      exact search
  · rintro rfl
    exact chosen_free taken stem key

end FlatName

end DesignTokens
