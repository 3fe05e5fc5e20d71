import LensPath.Proofs.Grammar

/-!
Members as they are written, with dots between them. The sentences are the texts of members that
all have names, if there is one at all.
-/

namespace LensPath

namespace Member

def display (member : Member) : String :=
  match member.kind with
  | .property => member.name
  | .method => member.name ++ "()"

theorem toList_display (member : Member) : member.display.toList = member.text := by
  obtain ⟨kind, name⟩ := member
  cases kind <;> simp [display, text, MemberKind.mark]

theorem utf8ByteSize_display (member : Member) :
    member.display.utf8ByteSize = member.width := by
  rw [width, ← toList_display, Text.byteLength_toList]

def render (members : List Member) : String := ".".intercalate (members.map display)

theorem toList_render (members : List Member) :
    (render members).toList = ['.'].intercalate (members.map text) := by
  have texts : members.map text = (members.map display).map String.toList := by
    simp [toList_display]
  rw [render, texts]
  exact String.toList_intercalate

@[simp] theorem render_singleton (member : Member) : render [member] = member.display :=
  String.intercalate_singleton

theorem render_cons {members : List Member} (nonempty : members ≠ []) (member : Member) :
    render (member :: members) = member.display ++ "." ++ render members :=
  String.intercalate_cons_of_ne_nil (by simpa using nonempty)

theorem utf8ByteSize_render_cons {members : List Member} (nonempty : members ≠ [])
    (member : Member) :
    (render (member :: members)).utf8ByteSize =
      member.width + 1 + (render members).utf8ByteSize := by
  rw [render_cons nonempty, String.utf8ByteSize_append, String.utf8ByteSize_append,
    utf8ByteSize_display]
  rfl

structure Readable (members : List Member) : Prop where
  nonempty : members ≠ []
  named : ∀ member ∈ members, member.Named

end Member

theorem Path.display_eq_render (path : Path) : path.display = Member.render path.members := by
  have displays : path.segments.map Segment.display = path.members.map Member.display := by
    rw [members, List.map_map]
    rfl
  rw [display, displays, Member.render]

theorem Sentence.readable {members : List Member} {text : List Char}
    (sentence : Sentence members text) : Member.Readable members := by
  refine ⟨sentence.members_ne_nil, ?_⟩
  induction sentence with
  | last named => exact List.forall_mem_singleton.mpr named
  | dotted named _ induction => exact List.forall_mem_cons.mpr ⟨named, induction⟩

theorem Sentence.toList_render {members : List Member} {text : List Char}
    (sentence : Sentence members text) : (Member.render members).toList = text := by
  rw [Member.toList_render, sentence.text_eq]

theorem Member.Readable.sentence {members : List Member} (readable : Readable members) :
    Sentence members (render members).toList := by
  obtain ⟨nonempty, named⟩ := readable
  induction members with
  | nil => exact absurd rfl nonempty
  | cons member members induction =>
      obtain ⟨first, later⟩ := List.forall_mem_cons.mp named
      by_cases none : members = []
      · subst none
        rw [render_singleton, toList_display]
        exact .last first
      · have spelled : (render (member :: members)).toList =
            member.text ++ '.' :: (render members).toList := by
          simp [render_cons none, toList_display]
        rw [spelled]
        exact .dotted first (induction none later)

end LensPath
