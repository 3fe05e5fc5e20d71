/-!
Half-open ranges of byte offsets. Offsets are 64-bit: every sum and difference is checked,
and a result that does not fit is a `Fault`. The operations that can fail return
`Except Fault`; `Span.hull` is the one that never does.
-/

namespace LensPath

/-- Offsets are the natural numbers below this bound, which is 2⁶⁴. -/
def offsetBound : Nat := 18446744073709551616

/-- Causes for which offset arithmetic, or a look at a place, has no answer. -/
inductive Fault
  | sumOverflow
  | differenceOverflow
  | reversed (start stop : Nat)
  | outOfRange (index count : Nat)
  | unsliced (start stop : Nat)
deriving DecidableEq, Repr

def Fault.message : Fault → String
  | .sumOverflow => "attempt to add with overflow"
  | .differenceOverflow => "attempt to subtract with overflow"
  | .reversed start stop =>
      "span start " ++ toString start ++ " is past its end " ++ toString stop
  | .outOfRange index count =>
      "index out of bounds: the len is " ++ toString count ++ " but the index is " ++
        toString index
  | .unsliced start stop => "no slice at bytes " ++ toString start ++ ".." ++ toString stop

namespace Offset

def add (left right : Nat) : Except Fault Nat :=
  if left + right < offsetBound then .ok (left + right) else .error .sumOverflow

def sub (left right : Nat) : Except Fault Nat :=
  if right ≤ left then .ok (left - right) else .error .differenceOverflow

def item (items : List α) (index : Nat) : Except Fault α :=
  match items[index]? with
  | some found => .ok found
  | none => .error (.outOfRange index items.length)

theorem add_of_lt {left right : Nat} (fits : left + right < offsetBound) :
    add left right = .ok (left + right) := if_pos fits

theorem add_of_ge {left right : Nat} (exceeds : offsetBound ≤ left + right) :
    add left right = .error .sumOverflow := if_neg (Nat.not_lt.mpr exceeds)

theorem item_eq_ok_iff {items : List α} {index : Nat} {found : α} :
    item items index = .ok found ↔ items[index]? = some found := by
  rw [item]
  cases items[index]? with
  | none => exact iff_of_false nofun nofun
  | some other => exact ⟨fun same => congrArg some (Except.ok.inj same), fun same =>
      congrArg Except.ok (Option.some.inj same)⟩

end Offset

/-- A range of bytes, from `start` up to and without `stop`. -/
structure Span where
  start : Nat
  stop : Nat
deriving DecidableEq, Repr

namespace Span

def Ordered (span : Span) : Prop := span.start ≤ span.stop

instance (span : Span) : Decidable span.Ordered :=
  inferInstanceAs (Decidable (span.start ≤ span.stop))

def point (offset : Nat) : Span := ⟨offset, offset⟩

/-- The span between two offsets, refused when they are in the wrong order. -/
def make (start stop : Nat) : Except Fault Span :=
  if start ≤ stop then .ok ⟨start, stop⟩ else .error (.reversed start stop)

def length (span : Span) : Except Fault Nat := Offset.sub span.stop span.start

def isEmpty (span : Span) : Bool := span.start == span.stop

def hull (left right : Span) : Span :=
  ⟨min left.start right.start, max left.stop right.stop⟩

def cover (left right : Span) : Except Fault Span :=
  make (min left.start right.start) (max left.stop right.stop)

/-- The span moved right. The start is moved before the end. -/
def shift (span : Span) (offset : Nat) : Except Fault Span := do
  let start ← Offset.add span.start offset
  let stop ← Offset.add span.stop offset
  make start stop

def translate (span : Span) (offset : Nat) : Span :=
  ⟨span.start + offset, span.stop + offset⟩

def display (span : Span) : String := toString span.start ++ ".." ++ toString span.stop

theorem make_of_le {start stop : Nat} (ordered : start ≤ stop) :
    make start stop = .ok ⟨start, stop⟩ := if_pos ordered

theorem cover_eq_hull {left right : Span} (ordered : (left.hull right).Ordered) :
    left.cover right = .ok (left.hull right) := make_of_le ordered

theorem shift_eq_translate {span : Span} {offset : Nat} (ordered : span.Ordered)
    (fits : span.stop + offset < offsetBound) :
    span.shift offset = .ok (span.translate offset) := by
  have starts : span.start + offset ≤ span.stop + offset := Nat.add_le_add_right ordered offset
  rw [shift, Offset.add_of_lt (Nat.lt_of_le_of_lt starts fits), Offset.add_of_lt fits]
  exact make_of_le starts

theorem shift_of_ge {span : Span} {offset : Nat}
    (exceeds : offsetBound ≤ span.stop + offset) : span.shift offset = .error .sumOverflow := by
  rw [shift, Offset.add_of_ge exceeds]
  by_cases fits : span.start + offset < offsetBound
  · rw [Offset.add_of_lt fits]
    rfl
  · rw [Offset.add_of_ge (Nat.le_of_not_lt fits)]
    rfl

end Span

end LensPath
