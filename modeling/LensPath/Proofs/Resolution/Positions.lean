import LensPath.Path.Reading
import LensPath.Proofs.Grammar
import LensPath.Proofs.Resolution
import LensPath.TypeModel.Table

/-!
Resolution and positions. Which members a path names is all that resolution asks of it; where its
segments and separators stand only shows in the segments that are handed back.
-/

namespace LensPath

namespace Segment

variable {segments others : List Segment}

theorem exists_of_members (same : segments.map member = others.map member) {index : Nat}
    {segment : Segment} (found : segments[index]? = some segment) :
    ∃ other, others[index]? = some other ∧ other.member = segment.member := by
  have places := congrArg (·[index]?) same
  simp only [List.getElem?_map, found, Option.map_some] at places
  exact Option.map_eq_some_iff.mp places.symm

theorem length_of_members (same : segments.map member = others.map member) :
    segments.length = others.length := by
  simpa using congrArg List.length same

end Segment

namespace TypeModel

variable {model : TypeModel τ} {root : τ} {segments others : List Segment} {mode : Lens.Mode}
variable {path other : Path}

theorem memberType?_of_member {segment other : Segment} (same : segment.member = other.member)
    (type : τ) : model.memberType? type segment = model.memberType? type other := by
  have kind : segment.kind = other.kind := congrArg Member.kind same
  have name : segment.name = other.name := congrArg Member.name same
  simp only [memberType?, kind, name]

theorem memberAt_of_typeAt_eq (same : segments.map Segment.member = others.map Segment.member)
    {index : Nat}
    (types : model.typeAt root segments index = model.typeAt root others index) :
    model.memberAt root segments index = model.memberAt root others index := by
  cases reached : model.typeAt root others index with
  | none => simp only [memberAt, bind, types, reached, Option.bind_none]
  | some type =>
      cases found : segments[index]? with
      | some segment =>
          obtain ⟨other, there, member⟩ := Segment.exists_of_members same found
          rw [memberAt_of_typeAt (types.trans reached) found, memberAt_of_typeAt reached there,
            memberType?_of_member member]
      | none =>
          have past : others[index]? = none := by
            rw [List.getElem?_eq_none_iff] at found ⊢
            rwa [← Segment.length_of_members same]
          simp only [memberAt, bind, types, found, past]

theorem typeAt_of_members (same : segments.map Segment.member = others.map Segment.member) :
    model.typeAt root segments = model.typeAt root others := by
  funext index
  induction index with
  | zero => rfl
  | succ index induction =>
      rw [typeAt_succ, typeAt_succ, memberAt_of_typeAt_eq same induction]

theorem memberAt_of_members (same : segments.map Segment.member = others.map Segment.member) :
    model.memberAt root segments = model.memberAt root others := by
  funext index
  exact memberAt_of_typeAt_eq same (congrFun (typeAt_of_members same) index)

theorem FailsAt.of_members {failure : MissingMember τ}
    (fails : model.FailsAt root segments failure)
    (same : segments.map Segment.member = others.map Segment.member) {other : Segment}
    (found : others[failure.index]? = some other) :
    model.FailsAt root others ⟨failure.index, other, failure.lookedUpOn⟩ := by
  obtain ⟨_, lookedUpOn, before, missing⟩ := fails
  rw [typeAt_of_members same] at lookedUpOn before
  rw [memberAt_of_members same] at before missing
  exact ⟨found, lookedUpOn, before, missing⟩

theorem ResolvesTo.of_members {result : Resolved τ}
    (resolves : model.ResolvesTo root segments result)
    (same : segments.map Segment.member = others.map Segment.member) :
    model.ResolvesTo root others result := by
  have length := Segment.length_of_members same
  obtain ⟨steps, length_le, ending⟩ := resolves
  rw [stepsUpTo, memberAt_of_members same] at steps
  rw [length] at length_le
  rw [length, typeAt_of_members same] at ending
  exact ⟨steps, length_le, ending⟩

theorem WritesCall.of_members {segment : Segment}
    (writes : model.WritesCall root segments mode segment)
    (same : segments.map Segment.member = others.map Segment.member) :
    ∃ other, other.name = segment.name ∧ model.WritesCall root others mode other := by
  obtain ⟨isWrite, last, call, lookedUp⟩ := writes
  have length := Segment.length_of_members same
  rw [length, typeAt_of_members same] at lookedUp
  rw [List.getLast?_eq_getElem?, length] at last
  obtain ⟨other, found, member⟩ := Segment.exists_of_members same last
  rw [← List.getLast?_eq_getElem?] at found
  have kind : other.kind = segment.kind := congrArg Member.kind member
  exact ⟨other, congrArg Member.name member, isWrite, found, kind.trans call, lookedUp⟩

theorem ResolvesTo.writeViolation_eq_none {result : Resolved τ}
    (resolves : model.ResolvesTo root path.segments result)
    (clean : ¬ ∃ segment, model.WritesCall root path.segments mode segment) :
    path.writeViolation (.resolved result) mode = none := by
  cases violates : path.writeViolation (.resolved result) mode with
  | none => rfl
  | some violation => exact absurd (resolves.writesCall_of_writeViolation violates) clean

end TypeModel

/-- Two paths get the same answer, but for a missing segment, which is each path's own. -/
inductive Resolution.Agree (path other : Path) : Resolution τ → Resolution τ → Prop
  | resolved (result : Resolved τ) : Agree path other (.resolved result) (.resolved result)
  | missing {index : Nat} {segment otherSegment : Segment} {lookedUpOn : τ}
      (own : path.segments[index]? = some segment)
      (otherOwn : other.segments[index]? = some otherSegment) :
      Agree path other (.missing ⟨index, segment, lookedUpOn⟩)
        (.missing ⟨index, otherSegment, lookedUpOn⟩)

inductive WriteViolation.Agree (path other : Path) :
    Option WriteViolation → Option WriteViolation → Prop
  | clean : Agree path other none none
  | written {index : Nat} {name : String} {last otherLast : Segment}
      (own : path.last? = some last) (otherOwn : other.last? = some otherLast) :
      Agree path other (some ⟨index, name, last.span⟩) (some ⟨index, name, otherLast.span⟩)

theorem WriteViolation.Agree.eq_some {path other : Path} {violation : WriteViolation}
    {answer : Option WriteViolation} {last : Segment}
    (agree : Agree path other (some violation) answer) (isLast : other.last? = some last) :
    answer = some ⟨violation.index, violation.name, last.span⟩ := by
  cases agree with
  | written _ otherOwn =>
      cases otherOwn.symm.trans isLast
      rfl

namespace TypeModel

variable {model : TypeModel τ} {root : τ} {mode : Lens.Mode} {path other : Path}

theorem ResolvesTo.writeViolation_agree {result : Resolved τ}
    (resolves : model.ResolvesTo root path.segments result)
    (otherResolves : model.ResolvesTo root other.segments result)
    (same : path.members = other.members) :
    WriteViolation.Agree path other (path.writeViolation (.resolved result) mode)
      (other.writeViolation (.resolved result) mode) := by
  by_cases writes : ∃ segment, model.WritesCall root path.segments mode segment
  · obtain ⟨segment, writes⟩ := writes
    obtain ⟨otherSegment, name, otherWrites⟩ := writes.of_members same
    have length : other.length = path.length := Segment.length_of_members same.symm
    rw [resolves.writeViolation_of_writesCall writes,
      otherResolves.writeViolation_of_writesCall otherWrites, name, length]
    exact .written writes.last otherWrites.last
  · have clean : ¬ ∃ segment, model.WritesCall root other.segments mode segment := by
      intro otherWrites
      obtain ⟨segment, otherWrites⟩ := otherWrites
      obtain ⟨own, _, ownWrites⟩ := otherWrites.of_members same.symm
      exact writes ⟨own, ownWrites⟩
    rw [resolves.writeViolation_eq_none writes, otherResolves.writeViolation_eq_none clean]
    exact .clean

/-- Paths that name the same members are resolved alike, wherever their segments and separators
stand, and end alike for a lens that writes. -/
theorem resolve_of_members (model : TypeModel τ) (root : τ) {path other : Path}
    (same : path.members = other.members) :
    (model.resolve root path).Agree path other (model.resolve root other) ∧
      ∀ mode, WriteViolation.Agree path other
        (path.writeViolation (model.resolve root path) mode)
        (other.writeViolation (model.resolve root other) mode) := by
  have answers : model.Answers root path.segments (model.resolve root path) :=
    resolve_answers path
  cases resolution : model.resolve root path with
  | missing failure =>
      rw [resolution] at answers
      obtain ⟨own, found, _⟩ := Segment.exists_of_members same answers.segment
      have otherResolution : model.resolve root other =
          .missing ⟨failure.index, own, failure.lookedUpOn⟩ :=
        (resolve_answers other).unique (FailsAt.of_members answers same found)
      rw [otherResolution]
      refine ⟨.missing answers.segment found, fun mode => ?_⟩
      cases mode <;> exact .clean
  | resolved result =>
      rw [resolution] at answers
      have otherAnswers : model.ResolvesTo root other.segments result :=
        ResolvesTo.of_members answers same
      have otherResolution : model.resolve root other = .resolved result :=
        (resolve_answers other).unique otherAnswers
      rw [otherResolution]
      exact ⟨.resolved result, fun _ => answers.writeViolation_agree otherAnswers same⟩

def homeTable : TypeTable :=
  .ofList [("Person", { fields := [{ name := "home", type := "Home" }] }),
    ("Home", { methods := [{ name := "name", returns := "String" }] })]

/-- The segments of `home.name()` in the wrong places, one inside the other. -/
def scattered : Path :=
  ⟨[⟨.property, "home", ⟨3, 5⟩, ⟨4, 9⟩⟩, ⟨.method, "name", ⟨0, 2⟩, ⟨1, 12⟩⟩], [⟨40, 44⟩], rfl⟩

theorem resolve_of_members_scattered :
    (Path.ofString "home.name()").members = scattered.members ∧
      homeTable.model.resolve "Person" (Path.ofString "home.name()") =
        .resolved ⟨[⟨0, "Home"⟩, ⟨1, "String"⟩], some 1⟩ ∧
      homeTable.model.resolve "Person" scattered =
        .resolved ⟨[⟨0, "Home"⟩, ⟨1, "String"⟩], some 1⟩ ∧
      (Path.ofString "home.name()").writeViolation
          (homeTable.model.resolve "Person" (Path.ofString "home.name()")) .write =
        some ⟨1, "name", ⟨5, 11⟩⟩ ∧
      scattered.writeViolation (homeTable.model.resolve "Person" scattered) .write =
        some ⟨1, "name", ⟨1, 12⟩⟩ := by
  have same : (Path.ofString "home.name()").members = scattered.members := by decide +kernel
  have resolved : homeTable.model.resolve "Person" (Path.ofString "home.name()") =
      .resolved ⟨[⟨0, "Home"⟩, ⟨1, "String"⟩], some 1⟩ := by decide +kernel
  have own : (Path.ofString "home.name()").writeViolation
      (homeTable.model.resolve "Person" (Path.ofString "home.name()")) .write =
        some ⟨1, "name", ⟨5, 11⟩⟩ := by decide +kernel
  obtain ⟨agree, writes⟩ := resolve_of_members homeTable.model "Person" same
  have violations := writes .write
  rw [resolved] at agree
  rw [own] at violations
  refine ⟨same, resolved, ?_, own, violations.eq_some rfl⟩
  generalize homeTable.model.resolve "Person" scattered = answer at agree
  cases agree
  rfl

end TypeModel

end LensPath
