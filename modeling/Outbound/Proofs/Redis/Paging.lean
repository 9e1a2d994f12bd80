import Mathlib.Data.Nat.Find
import Mathlib.Tactic.ByContra
import Mathlib.Tactic.Choose
import Outbound.Redis.LiveScan

/-!
# Which pages a scan gets

A scan goes on from page to page by their cursors until an answer ends it. It has handed on every
page by then, the last one included, and sends nothing more.
-/

namespace Outbound.Redis

namespace Answer

/-- Every answer either is followed by another command or ends the scan. -/
theorem goesOn_iff_not_ends (answer : Answer) :
    (∃ page, answer.GoesOn page) ↔ ¬ ∃ last result, answer.Ends last result := by
  constructor
  · rintro ⟨⟨cursor, items⟩, hpage, hcursor⟩ ⟨last, result, hends⟩
    cases hends with
    | last h =>
      cases hpage.symm.trans h
      exact hcursor rfl
    | nothing h => cases hpage.symm.trans h
    | failed h => cases hpage.symm.trans h
  · intro h
    match hpage : answer.page? with
    | .error e => exact (h ⟨_, _, .failed hpage⟩).elim
    | .ok none => exact (h ⟨_, _, .nothing hpage⟩).elim
    | .ok (some (0, items)) => exact (h ⟨_, _, .last hpage⟩).elim
    | .ok (some (cursor + 1, items)) => exact ⟨_, hpage, Nat.succ_ne_zero cursor⟩

theorem goesOn_or_ends (answer : Answer) :
    (∃ page, answer.GoesOn page) ∨ ∃ last result, answer.Ends last result := by
  rw [goesOn_iff_not_ends]
  exact (Classical.em _).symm

end Answer

namespace ScanWalk

variable {answer : Answer} {cursor : ℕ} {rest : List Answer}

theorem walkFrom_of_goesOn {page : ℕ × List String} (h : answer.GoesOn page) :
    walkFrom cursor (answer :: rest) = (walkFrom page.1 rest).prepend cursor page.2 := by
  obtain ⟨_ | next, items⟩ := page
  · exact (h.2 rfl).elim
  · have hpage : answer.bind Reply.toPage? = .ok (some (next + 1, items)) := h.1
    simp only [walkFrom, hpage]

theorem walkFrom_of_ends {last : List (List String)} {result : Outcome Unit}
    (h : answer.Ends last result) : walkFrom cursor (answer :: rest) = ⟨[cursor], last, result⟩ := by
  cases h with
  | last h | nothing h | failed h =>
    simp only [Answer.page?] at h
    simp only [walkFrom, h]

end ScanWalk

namespace LiveScan

variable {s : LiveScan} {answer : Answer}

theorem step_of_goesOn {page : ℕ × List String} (hs : s.result = none) (h : answer.GoesOn page) :
    s.step answer =
      some { s with asked := s.asked ++ [page.1], pages := s.pages ++ [page.2] } := by
  obtain ⟨hpage, hcursor⟩ := h
  simp only [step, hs, hpage, hcursor, Option.isSome_none, Bool.false_eq_true, if_false]

theorem step_of_ends {last : List (List String)} {result : Outcome Unit} (hs : s.result = none)
    (h : answer.Ends last result) :
    s.step answer = some { s with pages := s.pages ++ last, result := some result } := by
  cases h with
  | last h | nothing h | failed h => simp [step, hs, h]

/-- Nothing is awaited once the scan is over. -/
theorem step_of_over (hs : s.result.isSome = true) : s.step answer = none :=
  if_pos hs

theorem foldlM_of_over {answers : List Answer} (hs : s.result.isSome = true)
    (hne : answers ≠ []) : answers.foldlM step s = none := by
  cases answers with
  | nil => exact (hne rfl).elim
  | cons answer rest => rw [List.foldlM_cons, step_of_over hs]; rfl

theorem run_append (answers rest : List Answer) :
    run (answers ++ rest) = (run answers).bind (rest.foldlM step) := by
  rw [run, List.foldlM_append]
  rfl

theorem run_concat (answers : List Answer) :
    run (answers ++ [answer]) = (run answers).bind (·.step answer) := by
  rw [run_append]
  congr 1
  funext s
  exact List.foldlM_cons.trans (bind_pure _)

/-! ## Walking all at once -/

/-- A scan that has come to its end from a cursor on has done what a walk from there does. -/
theorem walkFrom_of_foldlM {answers : List Answer} {asked : List ℕ} {cursor : ℕ}
    {pages : List (List String)} {result : Outcome Unit}
    (h : answers.foldlM step ⟨asked ++ [cursor], pages, none⟩ = some s)
    (hs : s.result = some result) (rest : List Answer) :
    ∃ walk, ScanWalk.walkFrom cursor (answers ++ rest) = walk ∧
      s.asked = asked ++ walk.asked ∧ s.pages = pages ++ walk.pages ∧ result = walk.result := by
  induction answers generalizing asked cursor pages with
  | nil =>
    cases h
    cases hs
  | cons answer answers ih =>
    rw [List.foldlM_cons] at h
    rcases answer.goesOn_or_ends with ⟨page, hpage⟩ | ⟨last, final, hends⟩
    · rw [step_of_goesOn rfl hpage] at h
      obtain ⟨walk, hwalk, hasked, hpages, hresult⟩ := ih h
      refine ⟨walk.prepend cursor page.2, ?_, ?_, ?_, hresult⟩
      · rw [List.cons_append, ScanWalk.walkFrom_of_goesOn hpage, hwalk]
      · rw [hasked, List.append_assoc]
        rfl
      · rw [hpages, List.append_assoc]
        rfl
    · rw [step_of_ends rfl hends] at h
      -- The scan is over, so that no answer can be left.
      obtain rfl : answers = [] := by
        by_contra hne
        have hnone := foldlM_of_over (s := ⟨asked ++ [cursor], pages ++ last, some final⟩) rfl hne
        exact Option.some_ne_none _ (h.symm.trans hnone)
      cases h
      cases hs
      exact ⟨_, ScanWalk.walkFrom_of_ends hends, rfl, rfl, rfl⟩

theorem scan_of_run {answers : List Answer} {result : Outcome Unit} (h : run answers = some s)
    (hs : s.result = some result) (rest : List Answer) :
    scan (answers ++ rest) = ⟨s.asked, s.pages, result⟩ := by
  obtain ⟨walk, hwalk, hasked, hpages, hresult⟩ :=
    walkFrom_of_foldlM (show answers.foldlM step ⟨[] ++ [0], [], none⟩ = some s from h) hs rest
  rw [scan, hwalk, hasked, hpages, hresult]
  rfl

/-! ## Answers without end -/

variable {answers : ℕ → Answer} {pages : ℕ → ℕ × List String} {n : ℕ}

/-- What a scan has done when the first `n` pages were each followed by another command. -/
def along (pages : ℕ → ℕ × List String) (n : ℕ) : LiveScan where
  asked := 0 :: (List.range n).map fun k ↦ (pages k).1
  pages := (List.range n).map fun k ↦ (pages k).2

theorem run_of_goesOn (h : ∀ k < n, (answers k).GoesOn (pages k)) :
    run ((List.range n).map answers) = some (along pages n) := by
  induction n with
  | zero => rfl
  | succ n ih =>
    have hbefore := ih fun k hk ↦ h k (Nat.lt_succ_of_lt hk)
    rw [List.range_succ, List.map_append, List.map_singleton, run_concat, hbefore, Option.bind_some,
      step_of_goesOn rfl (h n (Nat.lt_succ_self n))]
    simp only [along, List.range_succ, List.map_append, List.map_singleton, List.cons_append]

theorem run_of_ends {last : List (List String)} {result : Outcome Unit}
    (h : ∀ k < n, (answers k).GoesOn (pages k)) (hends : (answers n).Ends last result) :
    run ((List.range (n + 1)).map answers) =
      some { along pages n with
        pages := (along pages n).pages ++ last
        result := some result } := by
  rw [List.range_succ, List.map_append, List.map_singleton, run_concat, run_of_goesOn h,
    Option.bind_some, step_of_ends rfl hends]

theorem run_of_over {m : ℕ} (hrun : run ((List.range n).map answers) = some s)
    (hs : s.result.isSome = true) (hm : n < m) : run ((List.range m).map answers) = none := by
  obtain ⟨d, rfl⟩ := Nat.exists_eq_add_of_lt hm
  rw [Nat.add_assoc, List.range_add, List.map_append, run_append, hrun, Option.bind_some]
  exact foldlM_of_over hs (by simp)

theorem exists_pages (h : ∀ k < n, ¬ ∃ last result, (answers k).Ends last result) :
    ∃ pages : ℕ → ℕ × List String, ∀ k < n, (answers k).GoesOn (pages k) := by
  have hpage : ∀ k, ∃ page, k < n → (answers k).GoesOn page := by
    intro k
    by_cases hk : k < n
    · obtain ⟨page, hpage⟩ := (answers k).goesOn_iff_not_ends.2 (h k hk)
      exact ⟨page, fun _ ↦ hpage⟩
    · exact ⟨(0, []), fun hk' ↦ (hk hk').elim⟩
  choose pages hpages using hpage
  exact ⟨pages, hpages⟩

/-- A scan comes to its end exactly if one of the answers ends scans. -/
theorem exists_over_iff : (∃ n s, run ((List.range n).map answers) = some s ∧
      s.result.isSome = true) ↔ ∃ n last result, (answers n).Ends last result := by
  classical
  constructor
  · rintro ⟨n, s, hrun, hs⟩
    by_contra hnever
    obtain ⟨pages, hpages⟩ := exists_pages (n := n) fun k _ hends ↦ hnever ⟨k, hends⟩
    rw [run_of_goesOn hpages] at hrun
    cases hrun
    cases hs
  · intro hends
    -- The scan is over at the first answer that ends it.
    obtain ⟨pages, hpages⟩ := exists_pages (n := Nat.find hends) fun k hk ↦ Nat.find_min hends hk
    obtain ⟨last, result, hlast⟩ := Nat.find_spec hends
    exact ⟨_, _, run_of_ends hpages hlast, rfl⟩

/-- A scan asks for cursor zero and then for the cursor of each page it gets. It hands on the pages
in order, and its result is that of the first answer that ends it; by then the pages that came with
that answer are handed on as well, and nothing is sent any more. -/
theorem pages_followed_to_end (answers : ℕ → Answer) :
    (∀ k, (∃ page, (answers k).GoesOn page) ↔
      ¬ ∃ last result, (answers k).Ends last result) ∧
    (∀ (pages : ℕ → ℕ × List String) (n : ℕ), (∀ k < n, (answers k).GoesOn (pages k)) →
      let cursors := (List.range n).map fun k ↦ (pages k).1
      let items := (List.range n).map fun k ↦ (pages k).2
      run ((List.range n).map answers) = some ⟨0 :: cursors, items, none⟩ ∧
      ∀ last result, (answers n).Ends last result →
        run ((List.range (n + 1)).map answers) =
          some ⟨0 :: cursors, items ++ last, some result⟩ ∧
        (∀ m > n + 1, run ((List.range m).map answers) = none) ∧
        ∀ rest, scan ((List.range (n + 1)).map answers ++ rest) =
          ⟨0 :: cursors, items ++ last, result⟩) ∧
    ((∃ n last result, (answers n).Ends last result) ↔
      ∃ n s, run ((List.range n).map answers) = some s ∧ s.result.isSome = true) := by
  refine ⟨fun k ↦ (answers k).goesOn_iff_not_ends, fun pages n h ↦ ⟨run_of_goesOn h, ?_⟩,
    exists_over_iff.symm⟩
  intro last result hends
  have hrun := run_of_ends h hends
  exact ⟨hrun, fun m hm ↦ run_of_over hrun rfl hm, scan_of_run hrun rfl⟩

def twoPages : ℕ → Answer
  | 0 => .ok (.bulk [.int 17, .bulk [.status "a", .status "b"]])
  | _ => .ok (.bulk [.int 0, .bulk [.status "c"]])

theorem over_after_two_pages :
    run ((List.range 2).map twoPages) =
        some ⟨[0, 17], [["a", "b"], ["c"]], some (.ok ())⟩ ∧
      ∀ m > 2, run ((List.range m).map twoPages) = none := by
  have hon : ∀ k < 1, (twoPages k).GoesOn (17, ["a", "b"]) := by
    intro k hk
    rw [Nat.lt_one_iff.1 hk]
    exact ⟨rfl, by decide⟩
  have hends : (twoPages 1).Ends [["c"]] (.ok ()) := .last rfl
  obtain ⟨-, h⟩ := (pages_followed_to_end twoPages).2.1 _ 1 hon
  obtain ⟨hrun, hover, -⟩ := h _ _ hends
  exact ⟨hrun, hover⟩

end LiveScan

end Outbound.Redis
