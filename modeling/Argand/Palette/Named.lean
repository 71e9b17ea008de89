import Argand.Palette.Scheme

/-!
# Schemes by name

The schemes the library comes with. `Scheme.named?` finds one by its name, in which capital and
small letters are the same.
-/

namespace Argand.Scheme

section Named

variable {K : Type} [NatCast K] [Div K] [OfScientific K]

/-- A scheme of colors given as numbers. -/
def ofNats (name : String) (first : Nat) (others : List Nat) (negative axes : Nat) : Scheme K :=
  ⟨name, ((first :: others).map Color.ofNat).toArray, .ofNat negative, .ofNat axes, by simp⟩

/-- A scheme of a ramp that runs there and back. -/
def ofRamp (name : String) (first : Color K) (others : List (Color K)) (negative axes : Nat) :
    Scheme K :=
  ⟨name, (Color.thereAndBack (first :: others)).toArray, .ofNat negative, .ofNat axes,
    by simp [Color.thereAndBack]⟩

/-- The scheme where none is asked for. -/
def gray : Scheme K :=
  ofNats "Gray" 0xFFFFFF [0x999999] 0x000000 0x777777

/-- The schemes with a name. -/
def all : List (Scheme K) :=
  [ofNats "UGent" 0x1E64C8 [0x71A860, 0xFFD200, 0xF1A42B, 0xDC4E28, 0x825491] 0x000000 0xFFFFFF,
    ofNats "Fluo" 0xFF7F00 [0x7FFF00, 0x00FF7F, 0x007FFF, 0x7F00FF, 0xFF007F] 0x000000 0xFFFFFF,
    gray,
    ofRamp "Hot and cold" ⟨0.2298057, 0.29871797, 0.75368315⟩
      [⟨0.8653952, 0.8654102, 0.86539556⟩, ⟨0.70567316, 0.01555616, 0.15023281⟩]
      0x000000 0xFFFFFF,
    ofNats "Soft rainbow" 0x2EC7F1 [0x8669B4, 0xE43140, 0xF0D43A, 0x34C74C] 0x000000 0xFFFFFF,
    ofRamp "Dracula" (.ofNat 0x384259) ([0xF73859, 0x7AC7C4, 0xC4EDDE].map .ofNat)
      0x000000 0xFFFFFF,
    ofRamp "Candy" (.ofNat 0x6092CA) ([0x3FC1C9, 0xFCE38A, 0xFC5185].map .ofNat)
      0x000000 0xFFFFFF,
    ofRamp "Christmas" (.ofNat 0xFA4659) ([0xFEFFE4, 0xA3DE83, 0x2EB872].map .ofNat)
      0x413131 0xFFFFFF,
    ofNats "Autumn" 0x306BC5
      [0x14A6A5, 0x59CF85, 0xD8E74A, 0xCCA940, 0xF3D89F, 0xA5D82D, 0x71CFC3]
      0x000000 0xFFFFFF]

end Named

/-- The names of the schemes. -/
def names : List String :=
  (all (K := Float32)).map (·.name)

/-- Whether two names differ at most in the case of their letters from `A` to `Z`. -/
def sameName (a b : String) : Bool :=
  a.map Char.toLower = b.map Char.toLower

/-- The scheme of a name. -/
def named? {K : Type} [NatCast K] [Div K] [OfScientific K] (name : String) : Option (Scheme K) :=
  all.find? (sameName ·.name name)

end Argand.Scheme
