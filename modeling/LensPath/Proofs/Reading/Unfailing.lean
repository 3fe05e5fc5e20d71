import LensPath.Proofs.Path.Delivery
import LensPath.Proofs.Reading.Cursor

/-!
Readings never break down. A text is read in rounds, each of which takes a segment and the dot
behind it. The rounds come to an end, and what they have collected then is a path.
-/

namespace LensPath

/-- What has been read of a path, up to a cursor. A dot is put among the separators with the
segment behind it. -/
structure Gathering where
  cursor : Cursor
  segments : List Segment
  separators : List Span
  dot : Option Span
deriving DecidableEq, Repr

namespace Gathering

def start (cursor : Cursor) : Gathering := ⟨cursor, [], [], none⟩

inductive Round
  | goesOn (next : Gathering)
  | leaves (last : Gathering) (problem : Option Problem)
deriving DecidableEq, Repr

def push (gathering : Gathering) (segment : Segment) (cursor : Cursor) : Gathering :=
  ⟨cursor, gathering.segments ++ [segment], gathering.separators ++ gathering.dot.toList, none⟩

def passDot (gathering : Gathering) : Except Fault Round := do
  let located ← gathering.cursor.current
  match located.token with
  | .finish => return .leaves gathering (gathering.cursor.stray.map .stray)
  | .dot =>
      let (dot, cursor) ← gathering.cursor.advance
      return .goesOn { gathering with cursor := cursor, dot := some dot.span }
  | _ =>
      let problem ← gathering.cursor.problem .dotOrEnd
      return .leaves gathering (some problem)

def round (gathering : Gathering) : Except Fault Round := do
  let (taken, cursor) ← gathering.cursor.segment
  match taken with
  | .error problem => return .leaves { gathering with cursor := cursor } (some problem)
  | .ok segment => (gathering.push segment cursor).passDot

inductive Rounds : Gathering → List Gathering → Gathering → Option Problem → Prop
  | leaves {gathering last : Gathering} {problem : Option Problem}
      (left : gathering.round = .ok (.leaves last problem)) :
      Rounds gathering [gathering] last problem
  | goesOn {gathering next last : Gathering} {heads : List Gathering} {problem : Option Problem}
      (went : gathering.round = .ok (.goesOn next)) (rest : Rounds next heads last problem) :
      Rounds gathering (gathering :: heads) last problem

variable {gathering last : Gathering} {problem : Option Problem} {heads : List Gathering}
  {lexed : Lexed} {left : List Token.Located}

structure Collects (gathering : Gathering) (rest : Gathered) (last : Gathering)
    (problem : Option Problem) : Prop where
  segments : last.segments = gathering.segments ++ rest.segments
  -- a dot that waits for a segment is kept if one comes
  separators : last.separators = gathering.separators ++
    if rest.segments.isEmpty then [] else gathering.dot.toList ++ rest.separators
  problem : problem = rest.problem

theorem Collects.of_start {cursor : Cursor} {rest : Gathered}
    (collects : (start cursor).Collects rest last problem)
    (balanced : rest.separators.length = rest.segments.length - 1) :
    last.segments = rest.segments ∧ last.separators = rest.separators := by
  refine ⟨collects.segments, collects.separators.trans ?_⟩
  change (if rest.segments.isEmpty then [] else rest.separators) = rest.separators
  split
  · next none =>
      rw [List.isEmpty_iff.mp none] at balanced
      exact (List.length_eq_zero_iff.mp balanced).symm
  · rfl

theorem Collects.prepend {segment : Segment} {dot : Span} {rest : Gathered} {cursor : Cursor}
    (collects : Collects { gathering.push segment cursor with dot := some dot } rest last problem) :
    gathering.Collects (rest.prepend segment dot) last problem := by
  refine ⟨?_, ?_, ?_⟩
  · rw [collects.segments, Gathered.segments_prepend, push, List.append_assoc]
    rfl
  · rw [collects.separators, Gathered.separators_prepend, Gathered.segments_prepend, push,
      List.append_assoc]
    rfl
  · rw [collects.problem, Gathered.problem_prepend]

inductive Comes (gathering : Gathering) (lexed : Lexed) (left : List Token.Located) : Round → Prop
  | leaves {last : Gathering} {problem : Option Problem}
      (collects : gathering.Collects (Gathered.ofTokens lexed left) last problem)
      (reaches : gathering.cursor.Reaches last.cursor) :
      Comes gathering lexed left (.leaves last problem)
  | goesOn {segment : Segment} {dot : Span} {after : List Token.Located} {cursor : Cursor}
      (taken : Segment.take left = .ok (segment, ⟨.dot, dot⟩ :: after))
      (before : cursor.Before lexed after) (reaches : gathering.cursor.Reaches cursor) :
      Comes gathering lexed left (.goesOn { gathering.push segment cursor with dot := some dot })

theorem exists_passDot {segment : Segment} {after : List Token.Located} {cursor : Cursor}
    (taken : Segment.take left = .ok (segment, after)) (behind : cursor.Before lexed after)
    (sound : lexed.Sound) (reaches : gathering.cursor.Reaches cursor) :
    ∃ round, (gathering.push segment cursor).passDot = .ok round ∧
      gathering.Comes lexed left round := by
  have looked : (gathering.push segment cursor).cursor.current = .ok _ := behind.current
  rw [passDot, looked, ok_bind]
  cases after with
  | nil =>
      refine ⟨_, rfl, .leaves ?_ reaches⟩
      rw [Gathered.ofTokens_last taken, ← behind.stray]
      exact ⟨rfl, congrArg _ (List.append_nil _).symm, rfl⟩
  | cons found after =>
      have notFinish := behind.head_notFinish sound
      rcases Cursor.Before.exists_or_avoids (found :: after) .dot with ⟨dot, more, spelled⟩ | noDot
      · cases spelled
        obtain ⟨next, advanced, further⟩ := behind.advance sound
        refine ⟨_, ?_, .goesOn taken further (reaches.advance advanced)⟩
        simp only [push, List.headD_cons, advanced, ok_bind]
        rfl
      · have noDot := noDot found rfl
        refine ⟨.leaves (gathering.push segment cursor) (some (.unexpected .dotOrEnd found)),
          ?_, .leaves ?_ reaches⟩
        · simp only [push, List.headD_cons]
          rw [behind.problem sound]
          rfl
        · rw [Gathered.ofTokens_stopped taken noDot]
          exact ⟨rfl, congrArg _ (List.append_nil _).symm, rfl⟩

theorem exists_round (before : gathering.cursor.Before lexed left) (sound : lexed.Sound) :
    ∃ round, gathering.round = .ok round ∧ gathering.Comes lexed left round := by
  obtain ⟨taken, cursor, after, read, takes, behind, reaches⟩ := before.segment sound
  rw [round, read, ok_bind]
  cases takes with
  | segment taken => exact exists_passDot taken behind sound reaches
  | problem missed =>
      refine ⟨_, rfl, .leaves ?_ reaches⟩
      rw [Gathered.ofTokens_error missed]
      exact ⟨(List.append_nil _).symm, (List.append_nil _).symm, rfl⟩

structure Completes (gathering : Gathering) (lexed : Lexed) (left : List Token.Located)
    (heads : List Gathering) (last : Gathering) (problem : Option Problem) : Prop where
  rounds : gathering.Rounds heads last problem
  collects : gathering.Collects (Gathered.ofTokens lexed left) last problem
  reached : ∀ head ∈ heads, gathering.cursor.Reaches head.cursor
  reachesLast : gathering.cursor.Reaches last.cursor
  forward : ∀ head ∈ heads, gathering.cursor.position ≤ head.cursor.position
  increasing : heads.Pairwise fun head later => head.cursor.position < later.cursor.position
  bounded : heads.length ≤ left.length + 1

theorem exists_completes (before : gathering.cursor.Before lexed left) (sound : lexed.Sound) :
    ∃ heads last problem, gathering.Completes lexed left heads last problem := by
  -- on the number of tokens that are left, of which a round that goes on takes some
  induction count : left.length using Nat.strongRecOn generalizing gathering left with
  | ind count induction =>
      obtain ⟨round, went, comes⟩ := exists_round before sound
      cases comes with
      | leaves collects reaches =>
          refine ⟨[gathering], _, _, .leaves went, collects, ?_, reaches, ?_,
            List.pairwise_singleton _ _, Nat.le_add_left _ _⟩
          · exact fun head found => List.mem_singleton.mp found ▸ .refl
          · exact fun head found => List.mem_singleton.mp found ▸ Nat.le_refl _
      | @goesOn segment dot after cursor taken behind reaches =>
          have shorter := Segment.take_shorter taken
          rw [List.length_cons] at shorter
          obtain ⟨heads, last, problem, rest⟩ := @induction after.length (by omega)
            { gathering.push segment cursor with dot := some dot } after behind rfl
          have later : gathering.cursor.position < cursor.position := by
            have start := before.position_add
            have stop := behind.position_add
            omega
          refine ⟨gathering :: heads, last, problem, .goesOn went rest.rounds, ?_, ?_,
            reaches.trans rest.reachesLast, ?_, ?_, ?_⟩
          · rw [Gathered.ofTokens_dot taken]
            exact rest.collects.prepend
          · rw [List.forall_mem_cons]
            exact ⟨.refl, fun head found => reaches.trans (rest.reached head found)⟩
          · rw [List.forall_mem_cons]
            exact ⟨Nat.le_refl _, fun head found =>
              Nat.le_trans (Nat.le_of_lt later) (rest.forward head found)⟩
          · exact List.pairwise_cons.mpr ⟨fun head found =>
              Nat.lt_of_lt_of_le later (rest.forward head found), rest.increasing⟩
          · have bounded := rest.bounded
            rw [List.length_cons]
            omega

theorem Rounds.unique {others : List Gathering} {other : Gathering} {otherProblem : Option Problem}
    (rounds : gathering.Rounds heads last problem)
    (again : gathering.Rounds others other otherProblem) :
    heads = others ∧ last = other ∧ problem = otherProblem := by
  induction rounds generalizing others with
  | leaves left =>
      cases again with
      | leaves leftAgain =>
          cases left.symm.trans leftAgain
          exact ⟨rfl, rfl, rfl⟩
      | goesOn went _ => cases left.symm.trans went
  | goesOn went _ induction =>
      cases again with
      | leaves left => cases went.symm.trans left
      | goesOn wentAgain rest =>
          cases went.symm.trans wentAgain
          obtain ⟨rfl, same⟩ := induction rest
          exact ⟨rfl, same⟩

end Gathering

/-! ## Readings -/

namespace Reading

structure Leaves (start : Cursor) (heads : List Gathering) (last : Gathering)
    (problem : Option Problem) (reading : Reading) : Prop where
  reaches : ∀ gathering ∈ last :: heads, start.Reaches gathering.cursor
  increasing : heads.Pairwise fun head later => head.cursor.position < later.cursor.position
  bounded : heads.length ≤ start.tokens.length
  balanced : last.separators.length = last.segments.length - 1
  kept : Path.ofParts? last.segments last.separators = some reading.path
  problem : problem = reading.problem

/-- What a reading relies on, from the first token of a text on: each token has a span, the cursor
can be used wherever it gets to, and the loop is left with all that has been collected. -/
structure Unfailing (start : Cursor) (reading : Reading) : Prop where
  wellFormed : ∀ located ∈ start.tokens, located.span.WellFormed
  usable : ∀ cursor, start.Reaches cursor → cursor.Usable
  ends : ∃ heads last problem, (Gathering.start start).Rounds heads last problem
  leaves : ∀ heads last problem, (Gathering.start start).Rounds heads last problem →
    Leaves start heads last problem reading

theorem leaves_of_completes {source : String} {heads : List Gathering} {last : Gathering}
    {problem : Option Problem}
    (completes : (Gathering.start (.ofLexed (Lexed.ofString source))).Completes
      (Lexed.ofString source) (Lexed.ofString source).tokens heads last problem) :
    Leaves (.ofLexed (Lexed.ofString source)) heads last problem (ofString source) := by
  have gathered := Path.ofParts?_gathered source
  obtain ⟨balanced, _⟩ := Path.ofParts?_eq_some_iff.mp gathered
  obtain ⟨segments, separators⟩ := completes.collects.of_start balanced
  rw [← segments, ← separators] at gathered balanced
  refine ⟨?_, completes.increasing, ?_, balanced, gathered, completes.collects.problem⟩
  · exact List.forall_mem_cons.mpr ⟨completes.reachesLast, completes.reached⟩
  · have bounded := completes.bounded
    change heads.length ≤ (Lexed.ofString source).listing.length
    rwa [Lexed.listing, List.length_append]

/-- No text makes a reading break down. Each round starts from a token of its own, and the loop
leaves no dot over, so that what has been collected is a path. -/
theorem ofString_unfailing (source : String) (size : source.utf8ByteSize < textBound) :
    ∃ start, Cursor.ofString source = .ok start ∧ Unfailing start (ofString source) := by
  have sound := Lexed.sound_ofString size
  have before : (Gathering.start (.ofLexed (Lexed.ofString source))).cursor.Before _ _ :=
    Cursor.before_ofLexed (Lexed.ofString source)
  obtain ⟨heads, last, problem, completes⟩ := Gathering.exists_completes before sound
  refine ⟨_, Cursor.ofString_eq size, sound.wellFormed,
    fun cursor reaches => reaches.usable sound, ⟨heads, last, problem, completes.rounds⟩, ?_⟩
  intro others other otherProblem rounds
  obtain ⟨rfl, rfl, rfl⟩ := completes.rounds.unique rounds
  exact leaves_of_completes completes

theorem ofString_unfailing_unclosed :
    "a.b(.é".utf8ByteSize < textBound ∧
      (∃ start, Cursor.ofString "a.b(.é" = .ok start ∧ Unfailing start (ofString "a.b(.é")) ∧
      (ofString "a.b(.é").path.display = "a" := by
  have size : "a.b(.é".utf8ByteSize < textBound := by decide +kernel
  exact ⟨size, ofString_unfailing "a.b(.é" size, by decide +kernel⟩

end Reading

end LensPath
