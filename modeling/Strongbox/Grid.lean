/-!
# Grids of sixteen words

ChaCha20, BLAKE2b and Argon2 all stir a four by four grid of words in the same way: they mix each
of the four columns, then each of the four diagonals. They differ in the word and in the mixing of
four words, so the grid is generic in both.

## Main results

* `slant_unslant`, `unslant_slant`: reading the diagonals as columns loses nothing.
-/

namespace Strongbox

/-- Four words of a grid, from top to bottom. -/
structure Column (ω : Type) where
  a : ω
  b : ω
  c : ω
  d : ω
  deriving DecidableEq, Repr

/-- Sixteen words in four columns. -/
structure Grid (ω : Type) where
  c0 : Column ω
  c1 : Column ω
  c2 : Column ω
  c3 : Column ω
  deriving DecidableEq, Repr

namespace Grid

variable {ω : Type}

/-- The grid whose word number `i`, counted along the rows, is `f i`. -/
@[inline] def ofFn (f : Nat → ω) : Grid ω where
  c0 := ⟨f 0, f 4, f 8, f 12⟩
  c1 := ⟨f 1, f 5, f 9, f 13⟩
  c2 := ⟨f 2, f 6, f 10, f 14⟩
  c3 := ⟨f 3, f 7, f 11, f 15⟩

/-- The words along the rows. -/
def toList (g : Grid ω) : List ω :=
  [g.c0.a, g.c1.a, g.c2.a, g.c3.a, g.c0.b, g.c1.b, g.c2.b, g.c3.b,
    g.c0.c, g.c1.c, g.c2.c, g.c3.c, g.c0.d, g.c1.d, g.c2.d, g.c3.d]

/-- The grid that has the diagonals of `g` as columns. -/
def slant (g : Grid ω) : Grid ω where
  c0 := ⟨g.c0.a, g.c1.b, g.c2.c, g.c3.d⟩
  c1 := ⟨g.c1.a, g.c2.b, g.c3.c, g.c0.d⟩
  c2 := ⟨g.c2.a, g.c3.b, g.c0.c, g.c1.d⟩
  c3 := ⟨g.c3.a, g.c0.b, g.c1.c, g.c2.d⟩

/-- The grid that has the columns of `g` as diagonals. -/
def unslant (g : Grid ω) : Grid ω where
  c0 := ⟨g.c0.a, g.c3.b, g.c2.c, g.c1.d⟩
  c1 := ⟨g.c1.a, g.c0.b, g.c3.c, g.c2.d⟩
  c2 := ⟨g.c2.a, g.c1.b, g.c0.c, g.c3.d⟩
  c3 := ⟨g.c3.a, g.c2.b, g.c1.c, g.c0.d⟩

theorem unslant_slant (g : Grid ω) : g.slant.unslant = g := rfl

theorem slant_unslant (g : Grid ω) : g.unslant.slant = g := rfl

/-- One round: the columns, mixed by `mix 0` to `mix 3`, then the diagonals, mixed by `mix 4` to
`mix 7`. -/
@[inline] def round (mix : Nat → Column ω → Column ω) (g : Grid ω) : Grid ω :=
  let g : Grid ω := ⟨mix 0 g.c0, mix 1 g.c1, mix 2 g.c2, mix 3 g.c3⟩
  let g := g.slant
  unslant ⟨mix 4 g.c0, mix 5 g.c1, mix 6 g.c2, mix 7 g.c3⟩

end Grid

end Strongbox
