/-! Sets of characters given by ranges of code points. A stepped range holds every `step`-th
code point from its first to its last. -/

namespace SchemaTypes.Text

def inRanges (ranges : List (Nat × Nat)) (c : Char) : Bool :=
  ranges.any fun (first, last) => first ≤ c.toNat && c.toNat ≤ last

def inSteppedRanges (ranges : List (Nat × Nat × Nat)) (c : Char) : Bool :=
  ranges.any fun (first, last, step) =>
    first ≤ c.toNat && c.toNat ≤ last && (c.toNat - first) % step == 0

end SchemaTypes.Text
