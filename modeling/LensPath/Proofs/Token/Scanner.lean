import LensPath.Proofs.Token.Tiling
import LensPath.Token.Scanner

/-!
Scanners call by call. A scanner that starts at the head of a text yields the tokens that the text
is cut into, one with each call, and tells of no stray character until they have all been yielded.
From then on it stays as it is.
-/

namespace LensPath

namespace Scanner

def after (scanner : Scanner) : Nat → Scanner
  | 0 => scanner
  | count + 1 => (scanner.after count).next.2

def yielded (scanner : Scanner) (count : Nat) : Option Token.Located :=
  (scanner.after count).next.1

/-- A run is what a scanner has before it. Once it has refused there are no more tokens before it,
and it keeps what stopped the run. -/
inductive Ahead (run : Lexed) : Scanner → Prop
  | running {offset : Nat} {rest : List Char} (cut : Lexed.scan offset rest = run) :
      Ahead run ⟨offset, rest, false, none⟩
  | finished {offset : Nat} {rest : List Char} (ended : run.tokens = []) :
      Ahead run ⟨offset, rest, true, run.stray⟩

theorem ahead_ofString (source : String) : Ahead (Lexed.ofString source) (ofString source) :=
  .running rfl

namespace Ahead

variable {run : Lexed} {scanner : Scanner}

theorem next (ahead : Ahead run scanner) :
    scanner.next.1 = run.tokens.head? ∧
      scanner.next.2.stray = (if run.tokens = [] then run.stray else none) ∧
      Ahead { run with tokens := run.tokens.tail } scanner.next.2 := by
  cases ahead with
  | @running offset rest cut =>
      cases taken : Token.take? rest with
      | none =>
          rw [Lexed.scan_none taken] at cut
          subst cut
          simp only [Scanner.next, taken, Bool.false_eq_true, if_false]
          exact ⟨rfl, rfl, .finished rfl⟩
      | some found =>
          obtain ⟨token, behind⟩ := found
          rw [Lexed.scan_some taken] at cut
          subst cut
          simp only [Scanner.next, taken, Bool.false_eq_true, if_false]
          exact ⟨rfl, rfl, .running rfl⟩
  | finished ended =>
      rw [ended]
      exact ⟨rfl, rfl, .finished rfl⟩

theorem after (ahead : Ahead run scanner) (count : Nat) :
    Ahead { run with tokens := run.tokens.drop count } (scanner.after count) := by
  induction count with
  | zero => exact ahead
  | succ count induction =>
      have further := induction.next.2.2
      rwa [List.tail_drop] at further

theorem yielded_eq (ahead : Ahead run scanner) (count : Nat) :
    scanner.yielded count = run.tokens[count]? := by
  rw [yielded, (ahead.after count).next.1, List.head?_drop]

theorem stray_after (ahead : Ahead run scanner) (count : Nat) :
    (scanner.after (count + 1)).stray = if run.tokens.drop count = [] then run.stray else none :=
  (ahead.after count).next.2.1

end Ahead

/-- The calls of a scanner yield the tokens of a run, and after them nothing. There is a stray
character to tell of, if any, from the first refusal on. -/
structure Yields (scanner : Scanner) (run : Lexed) : Prop where
  fresh : scanner.stray = none
  token : ∀ count, scanner.yielded count =
    (run.listing.filter fun located => located.token ≠ .finish)[count]?
  notFinish : ∀ count, ∀ located ∈ scanner.yielded count, located.token ≠ .finish
  running : ∀ count, scanner.yielded count ≠ none → (scanner.after (count + 1)).stray = none
  fused : ∀ count, scanner.yielded count = none → ∀ later ≥ count,
    scanner.yielded later = none ∧ (scanner.after (later + 1)).stray = run.stray

end Scanner

theorem Lexed.ne_finish_of_mem_ofString {source : String} {located : Token.Located}
    (found : located ∈ (ofString source).tokens) : located.token ≠ .finish := by
  have tiling := tiling_scan "" source.toList
  exact (tiling.fits located found).notFinish

theorem Lexed.filter_listing_ofString (source : String) :
    ((ofString source).listing.filter fun located => located.token ≠ .finish) =
      (ofString source).tokens := by
  rw [listing, List.filter_append, List.filter_eq_self.mpr]
  · exact List.append_nil _
  · intro located found
    exact decide_eq_true (ne_finish_of_mem_ofString found)

/-- A scanner yields the tokens that its text is cut into, and stays at their end. -/
theorem Scanner.ofString_yields (source : String) :
    (ofString source).Yields (Lexed.ofString source) := by
  have ahead := ahead_ofString source
  constructor
  · rfl
  · intro count
    rw [Lexed.filter_listing_ofString, ahead.yielded_eq]
  · intro count located found
    rw [ahead.yielded_eq] at found
    exact Lexed.ne_finish_of_mem_ofString (List.mem_of_getElem? found)
  · intro count some
    rw [ahead.yielded_eq, ← List.head?_drop, ne_eq, List.head?_eq_none_iff] at some
    rw [ahead.stray_after, if_neg some]
  · intro count none later above
    rw [ahead.yielded_eq, List.getElem?_eq_none_iff] at none
    have behind : (Lexed.ofString source).tokens.length ≤ later := Nat.le_trans none above
    rw [ahead.yielded_eq, ahead.stray_after, List.getElem?_eq_none behind,
      if_pos (List.drop_of_length_le behind)]
    exact ⟨rfl, rfl⟩

/-- Behind a character that is refused nothing is yielded, however often it is asked for. -/
theorem Scanner.ofString_yields_refused :
    (ofString "a#b").yielded 0 = some ⟨.name "a", 0, 1⟩ ∧ ((ofString "a#b").after 1).stray = none ∧
      ∀ later ≥ 1, (ofString "a#b").yielded later = none ∧
        ((ofString "a#b").after (later + 1)).stray = some ⟨'#', 1⟩ := by
  have yields := ofString_yields "a#b"
  have first : (ofString "a#b").yielded 0 = some ⟨.name "a", 0, 1⟩ := by decide +kernel
  have refused : (ofString "a#b").yielded 1 = none := by decide +kernel
  have stray : (Lexed.ofString "a#b").stray = some ⟨'#', 1⟩ := by decide +kernel
  refine ⟨first, yields.running 0 (by simp [first]), ?_⟩
  rw [← stray]
  exact yields.fused 1 refused

end LensPath
