import LensPath.Proofs.Inspection.Each
import LensPath.Proofs.TypeModel.Extension
import LensPath.Proofs.TypeModel.Known

/-!
Summaries of lenses that are clean. Such a lens is resolved, and its summary has one hop for each
segment that was looked up, with a note behind them if segments are left over.
-/

namespace LensPath

/-! ## Places of steps -/

namespace TypeModel

variable {model : TypeModel τ} {root : τ} {path : Path} {result : Resolved τ}

theorem ResolvesTo.exists_item (resolves : model.ResolvesTo root path.segments result)
    {index : Nat} (inside : index < result.steps.length) :
    ∃ segment, Offset.item path.segments index = .ok segment :=
  ⟨_, Offset.item_eq_ok_iff.mpr
    (List.getElem?_eq_getElem (Nat.lt_of_lt_of_le inside resolves.length_le))⟩

theorem ResolvesTo.exists_hops (resolves : model.ResolvesTo root path.segments result)
    (presentableName : τ → String) : ∃ hops, result.hops presentableName path = .ok hops := by
  have each : ∀ step ∈ result.steps, ∃ hop, (do
      let segment ← Offset.item path.segments step.index
      return segment.hop (presentableName step.memberType)) = Except.ok hop := by
    intro step taken
    obtain ⟨index, stepped⟩ := List.getElem?_of_mem taken
    obtain ⟨segment, found⟩ := resolves.exists_item (List.getElem?_eq_some_iff.mp stepped).1
    rw [(resolves.memberAt_of_step stepped).1, found]
    exact ⟨_, rfl⟩
  obtain ⟨hops, made⟩ := exists_mapM_eq_ok each
  rw [Resolved.hops, made]
  exact ⟨_, rfl⟩

theorem ResolvesTo.exists_note (resolves : model.ResolvesTo root path.segments result) :
    ∃ note, result.note path = .ok note := by
  rw [Resolved.note]
  split
  · next index stopped =>
      obtain ⟨segment, found⟩ :=
        resolves.exists_item (resolves.opaqueAt_eq_some_iff.mp stopped).1
      rw [found]
      split <;> exact ⟨_, rfl⟩
  · exact ⟨_, rfl⟩

/-- Each step is at the index of a segment, so that there is a summary of every resolution. -/
theorem exists_summary (model : TypeModel τ) (root : τ) (path : Path) :
    ∃ text, model.summary root path = .ok text := by
  have answers := @resolve_answers _ model root path
  rw [summary]
  cases resolved : model.resolve root path with
  | missing failure => exact ⟨_, rfl⟩
  | resolved result =>
      rw [resolved] at answers
      have resolves : model.ResolvesTo root path.segments result := answers
      obtain ⟨hops, made⟩ := resolves.exists_hops model.presentableName
      obtain ⟨note, noted⟩ := resolves.exists_note
      simp only [made, noted]
      exact ⟨_, rfl⟩

end TypeModel

/-! ## Lookups -/

namespace TypeTable

/-- From a type on, segments are looked up one after the other, each with the type that its member
is declared with, up to the last segment or to the first member of a type that is not known. -/
inductive LooksUp (table : TypeTable) :
    String → List Segment → List (Segment × String) → List Segment → Prop
  | done {type : String} : LooksUp table type [] [] []
  | stops {type memberType : String} {decl : TypeDecl} {segment : Segment} {rest : List Segment}
      (found : table.get? type = some decl) (declares : decl.Declares segment memberType)
      (isOpaque : table.contains memberType = false) :
      LooksUp table type (segment :: rest) [(segment, memberType)] rest
  | goesOn {type memberType : String} {decl : TypeDecl} {segment : Segment}
      {rest left : List Segment} {lookedUp : List (Segment × String)}
      (found : table.get? type = some decl) (declares : decl.Declares segment memberType)
      (known : table.contains memberType = true)
      (later : LooksUp table memberType rest lookedUp left) :
      LooksUp table type (segment :: rest) ((segment, memberType) :: lookedUp) left

def hop (lookedUp : Segment × String) : String :=
  " -> " ++ lookedUp.1.name ++ (if lookedUp.1.kind = .method then "()" else "") ++ ": " ++
    presentableName lookedUp.2

theorem segment_hop (segment : Segment) (type : String) :
    segment.hop (presentableName type) = hop (segment, type) := by
  cases kind : segment.kind <;> simp [Segment.hop, hop, Segment.display, kind, String.append_assoc]

def stepsFrom : Nat → List (Segment × String) → List (ResolvedStep String)
  | _, [] => []
  | index, (_, type) :: rest => ⟨index, type⟩ :: stepsFrom (index + 1) rest

theorem forall₂_stepsFrom (before : List Segment) (lookedUp : List (Segment × String))
    (left : List Segment) :
    List.Forall₂ (fun step found =>
        (before ++ (lookedUp.map Prod.fst ++ left))[step.index]? = some found.1 ∧
          step.memberType = found.2)
      (stepsFrom before.length lookedUp) lookedUp := by
  induction lookedUp generalizing before with
  | nil => exact .nil
  | cons first rest induction =>
      have later := induction (before ++ [first.1])
      rw [List.length_append, List.length_singleton, List.append_assoc] at later
      refine .cons ⟨?_, rfl⟩ later
      rw [List.getElem?_append_right (Nat.le_refl _), Nat.sub_self]
      rfl

variable {table : TypeTable} {type : String} {segments left : List Segment}
  {lookedUp : List (Segment × String)}

theorem mapM_of_forall₂ {taken : List (ResolvedStep String)}
    (steps : List.Forall₂ (fun step found =>
      segments[step.index]? = some found.1 ∧ step.memberType = found.2) taken lookedUp) :
    (taken.mapM fun step => segments[step.index]?) = some (lookedUp.map Prod.fst) := by
  induction steps with
  | nil => rfl
  | cons here _ induction =>
      rw [List.mapM_cons, here.1, induction]
      rfl

theorem LooksUp.segments_eq (looksUp : table.LooksUp type segments lookedUp left) :
    segments = lookedUp.map Prod.fst ++ left := by
  induction looksUp with
  | done => rfl
  | stops => rfl
  | goesOn _ _ _ _ induction => rw [induction]; rfl

structure Adds (progress stopped : Progress String) (lookedUp : List (Segment × String))
    (left : List Segment) : Prop where
  steps : stopped.steps = progress.steps ++ stepsFrom progress.index lookedUp
  opaqueAt : (stopped.opaqueAt = none ∧ left = []) ∨
    ∃ last, stopped.opaqueAt = some last ∧ last + 1 = progress.index + lookedUp.length

theorem exists_looksUp {rest : List Segment} {progress : Progress String}
    (whole : (table.model.resolver.visitAll rest progress).state.missing = none)
    (known : table.contains progress.current = true) (clear : progress.opaqueAt = none) :
    ∃ lookedUp left, table.LooksUp progress.current rest lookedUp left ∧
      Adds progress (table.model.resolver.visitAll rest progress).state lookedUp left := by
  induction rest generalizing progress with
  | nil => exact ⟨[], [], .done, (List.append_nil _).symm, .inl ⟨clear, rfl⟩⟩
  | cons segment rest induction =>
      obtain ⟨decl, declared⟩ := contains_iff.mp known
      rw [Visitor.visitAll_cons, TypeModel.resolver_segment] at whole ⊢
      cases named : table.model.memberType? progress.current segment with
      | none =>
          rw [named, Progress.advance_missing] at whole
          cases whole
      | some memberType =>
          have declares := (memberType?_eq_some_iff declared segment memberType).mp named
          rw [named] at whole
          cases inspected : table.model.inspectable memberType with
          | none =>
              have isOpaque : table.contains memberType = false := by
                rw [Bool.eq_false_iff]
                intro contained
                cases inspected.symm.trans (inspectable_eq_some_iff.mpr ⟨contained, rfl⟩)
              rw [Progress.advance_opaque inspected, Flow.halt_andThen]
              exact ⟨_, rest, .stops declared declares isOpaque, rfl, .inr ⟨_, rfl, rfl⟩⟩
          | some next =>
              obtain ⟨contained, rfl⟩ := inspectable_eq_some_iff.mp inspected
              rw [Progress.advance_inspectable inspected, Flow.proceed_andThen] at whole ⊢
              obtain ⟨lookedUp, left, looksUp, adds⟩ := induction whole contained clear
              refine ⟨_, left, .goesOn declared declares contained looksUp, ?_, ?_⟩
              · rw [adds.steps, List.append_assoc]
                rfl
              · apply adds.opaqueAt.imp_right
                intro stopped
                obtain ⟨last, isOpaque, length⟩ := stopped
                have length : last + 1 = progress.index + 1 + lookedUp.length := length
                refine ⟨last, isOpaque, ?_⟩
                rw [length, List.length_cons, Nat.add_right_comm, Nat.add_assoc]

/-- A resolution has a step for each segment that was looked up, and ends early where they do. -/
structure Follows (result : Resolved String) (lookedUp : List (Segment × String))
    (left : List Segment) : Prop where
  steps : result.steps = stepsFrom 0 lookedUp
  opaqueAt : (result.opaqueAt = none ∧ left = []) ∨
    ∃ last, result.opaqueAt = some last ∧ last + 1 = lookedUp.length

theorem exists_looksUp_of_resolve {root : String} {path : Path} {result : Resolved String}
    (known : table.contains root = true)
    (resolved : table.model.resolve root path = .resolved result) :
    ∃ lookedUp left, table.LooksUp root path.segments lookedUp left ∧
      Follows result lookedUp left := by
  rw [TypeModel.resolve_eq, Progress.resolution] at resolved
  split at resolved
  · cases resolved
  · next whole =>
      cases resolved
      obtain ⟨lookedUp, left, looksUp, adds⟩ := exists_looksUp whole known rfl
      refine ⟨lookedUp, left, looksUp, adds.steps, ?_⟩
      have opaqueAt := adds.opaqueAt
      simp only [Progress.start, Nat.zero_add] at opaqueAt
      exact opaqueAt

section Follows

variable {path : Path} {result : Resolved String}

theorem Follows.forall₂_steps (follows : Follows result lookedUp left)
    (segments : path.segments = lookedUp.map Prod.fst ++ left) :
    List.Forall₂ (fun step found =>
        path.segments[step.index]? = some found.1 ∧ step.memberType = found.2)
      result.steps lookedUp := by
  rw [follows.steps, segments]
  exact forall₂_stepsFrom [] lookedUp left

theorem Follows.mapM_steps (follows : Follows result lookedUp left)
    (segments : path.segments = lookedUp.map Prod.fst ++ left) :
    (result.steps.mapM fun step => path.segments[step.index]?) =
      some (lookedUp.map Prod.fst) :=
  mapM_of_forall₂ (follows.forall₂_steps segments)

theorem Follows.hops_eq (follows : Follows result lookedUp left)
    (segments : path.segments = lookedUp.map Prod.fst ++ left) :
    result.hops presentableName path = .ok (String.join (lookedUp.map hop)) := by
  have made : (result.steps.mapM fun step => do
      let segment ← Offset.item path.segments step.index
      return segment.hop (presentableName step.memberType)) = .ok (lookedUp.map hop) := by
    rw [mapM_eq_ok_iff, List.forall₂_map_right_iff]
    refine (follows.forall₂_steps segments).imp fun step found here => ?_
    rw [Offset.item_eq_ok_iff.mpr here.1, here.2, ← segment_hop]
    rfl
  rw [Resolved.hops, made]
  rfl

theorem Follows.lt_length (follows : Follows result lookedUp left)
    (segments : path.segments = lookedUp.map Prod.fst ++ left) {index : Nat}
    (isOpaque : result.opaqueAt = some index) : index < path.length := by
  rw [Path.length, segments, List.length_append, List.length_map]
  rcases follows.opaqueAt with ⟨clear, _⟩ | ⟨last, stopped, length⟩
  · cases isOpaque.symm.trans clear
  · cases isOpaque.symm.trans stopped
    omega

theorem Follows.note_of_whole (follows : Follows result lookedUp [])
    (segments : path.segments = lookedUp.map Prod.fst ++ []) : result.note path = .ok "" := by
  rcases follows.opaqueAt with ⟨clear, _⟩ | ⟨last, stopped, length⟩
  · simp only [Resolved.note, clear]
  · have past : ¬ last + 1 < path.length := by
      rw [Path.length, segments, List.append_nil, List.length_map, length]
      exact Nat.lt_irrefl _
    simp only [Resolved.note, stopped, if_neg past]

theorem Follows.note_of_left (follows : Follows result lookedUp left)
    (segments : path.segments = lookedUp.map Prod.fst ++ left) (more : left ≠ []) :
    ∃ last, lookedUp.getLast? = some last ∧ result.note path = .ok last.1.opaqueNote := by
  rcases follows.opaqueAt with ⟨_, none⟩ | ⟨index, stopped, length⟩
  · exact absurd none more
  · have positive := List.length_pos_iff.mpr more
    have inRange : index + 1 < path.length := by
      rw [Path.length, segments, List.length_append, List.length_map]
      omega
    have bound : index < lookedUp.length := by omega
    have last : lookedUp.getLast? = some lookedUp[index] := by
      rw [List.getLast?_eq_getElem?, ← length, Nat.add_sub_cancel]
      exact List.getElem?_eq_getElem bound
    have named : path.segments[index]? = some lookedUp[index].1 := by
      rw [segments, List.getElem?_append_left (by rw [List.length_map]; exact bound),
        List.getElem?_map, List.getElem?_eq_getElem bound]
      rfl
    refine ⟨_, last, ?_⟩
    simp only [Resolved.note, stopped, if_pos inRange, Offset.item_eq_ok_iff.mpr named]
    rfl

end Follows

/-- A text sums up lookups: a hop for each of them, and a note behind the last if there are
segments left over. -/
structure SumsUp (root : String) (lookedUp : List (Segment × String)) (left : List Segment)
    (text : String) : Prop where
  whole : left = [] → text = presentableName root ++ String.join (lookedUp.map hop)
  cutShort : left ≠ [] → ∃ last, lookedUp.getLast? = some last ∧
    text = presentableName root ++ String.join (lookedUp.map hop) ++
      ("\n(segments after '" ++ last.1.display ++ "' not checked: type is opaque)")

theorem Follows.exists_sumsUp {root : String} {path : Path} {result : Resolved String}
    (follows : Follows result lookedUp left)
    (segments : path.segments = lookedUp.map Prod.fst ++ left)
    (resolved : table.model.resolve root path = .resolved result) :
    ∃ text, table.model.summary root path = .ok text ∧ SumsUp root lookedUp left text := by
  have summed {note : String} (noted : result.note path = .ok note) :
      table.model.summary root path =
        .ok (presentableName root ++ String.join (lookedUp.map hop) ++ note) := by
    have hops : result.hops table.model.presentableName path = _ := follows.hops_eq segments
    simp only [TypeModel.summary, resolved, hops, noted]
    rfl
  by_cases none : left = []
  · subst none
    refine ⟨_, summed (follows.note_of_whole segments), fun _ => String.append_empty, ?_⟩
    exact fun more => absurd rfl more
  · obtain ⟨last, isLast, noted⟩ := follows.note_of_left segments none
    refine ⟨_, summed noted, fun isNone => absurd isNone none, fun _ => ⟨last, isLast, rfl⟩⟩

end TypeTable

theorem Run.stdout_ofOutputs (events : List Log.Event) (text : String) (isClean : Bool) :
    (ofOutputs (Run.events events ++ [.print text]) isClean).stdout = text := by
  rw [stdout, ofOutputs, List.filterMap_append, List.filterMap_eq_nil_iff.mpr]
  · simp
  · intro output found
    obtain ⟨event, _, rfl⟩ := List.mem_map.mp found
    rfl

theorem runCheck_of_clean {table : TypeTable} {root text : String} {lens : Lens}
    (known : table.contains root = true) (clean : table.model.check root lens = .ok [])
    (summed : table.model.summary root (Path.ofString lens.path) = .ok text) :
    (runCheck table root lens).ending = .clean ∧
      (runCheck table root lens).stdout = text ++ "\n" := by
  simp only [runCheck, if_pos known, clean, summed]
  exact ⟨rfl, Run.stdout_ofOutputs _ _ _⟩

namespace TypeTable

/-- A clean lens is resolved. What is printed of it has a hop for each member that was looked up, and
the note exactly if a segment is left. -/
theorem summary_of_clean (table : TypeTable) (root : String) (lens : Lens)
    (known : table.contains root = true) (clean : table.model.check root lens = .ok []) :
    ∃ result lookedUp left text,
      table.model.resolve root (Path.ofString lens.path) = .resolved result ∧
      (result.steps.mapM fun step => (Path.ofString lens.path).segments[step.index]?) =
        some (lookedUp.map Prod.fst) ∧
      (∀ index, result.opaqueAt = some index → index < (Path.ofString lens.path).length) ∧
      (Path.ofString lens.path).segments = lookedUp.map Prod.fst ++ left ∧
      table.LooksUp root (Path.ofString lens.path).segments lookedUp left ∧
      table.model.summary root (Path.ofString lens.path) = .ok text ∧
      SumsUp root lookedUp left text ∧
      (runCheck table root lens).ending = .clean ∧
      (runCheck table root lens).stdout = text ++ "\n" := by
  have notBlank : ¬ Blank lens.path := by
    intro blank
    cases (TypeModel.check_of_blank table.model root blank).symm.trans clean
  obtain ⟨result, resolved⟩ := TypeModel.exists_resolved_of_check notBlank clean (by simp)
  obtain ⟨lookedUp, left, looksUp, follows⟩ := exists_looksUp_of_resolve known resolved
  have segments := looksUp.segments_eq
  obtain ⟨text, summed, sumsUp⟩ := follows.exists_sumsUp segments resolved
  exact ⟨result, lookedUp, left, text, resolved, follows.mapM_steps segments,
    fun _ => follows.lt_length segments, segments, looksUp, summed, sumsUp,
    runCheck_of_clean known clean summed⟩

def labelTable : TypeTable := .ofList [
  ("app.Person", { fields := [{ name := "address", type := "app.Address" }] }),
  ("app.Address", { methods := [{ name := "labels", returns := "java.util.List<String>" }] })]

/-- The last segment is not looked up, so it may be a call although it is written to. -/
theorem summary_of_clean_labels :
    labelTable.contains "app.Person" = true ∧
      labelTable.model.check "app.Person" ⟨"address.labels().size()", .write, 0⟩ = .ok [] ∧
      (runCheck labelTable "app.Person" ⟨"address.labels().size()", .write, 0⟩).stdout =
        "Person -> address: Address -> labels(): List<String>\n" ++
          "(segments after 'labels()' not checked: type is opaque)\n" ∧
      ∃ lookedUp left,
        labelTable.LooksUp "app.Person" (Path.ofString "address.labels().size()").segments
          lookedUp left ∧
        SumsUp "app.Person" lookedUp left
          ("Person -> address: Address -> labels(): List<String>\n" ++
            "(segments after 'labels()' not checked: type is opaque)") := by
  have known : labelTable.contains "app.Person" = true := by decide +kernel
  have clean : labelTable.model.check "app.Person" ⟨"address.labels().size()", .write, 0⟩ =
      .ok [] := eq_ok_of_toOption (by decide +kernel)
  have text : labelTable.model.summary "app.Person" (Path.ofString "address.labels().size()") =
      .ok ("Person -> address: Address -> labels(): List<String>\n" ++
        "(segments after 'labels()' not checked: type is opaque)") :=
    eq_ok_of_toOption (by decide +kernel)
  obtain ⟨_, lookedUp, left, _, _, _, _, _, looksUp, summed, sumsUp, _, printed⟩ :=
    summary_of_clean labelTable "app.Person" ⟨"address.labels().size()", .write, 0⟩ known clean
  cases text.symm.trans summed
  exact ⟨known, clean, printed, lookedUp, left, looksUp, sumsUp⟩

end TypeTable

end LensPath
