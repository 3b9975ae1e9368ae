import HyprShelld.Hyprland.DefaultKeybindings

/-! The chords of the shipped defaults are distinct. -/
namespace HyprShelld.Hyprland

def asciiUpper (u : UInt16) : UInt16 := if 0x61 ≤ u.toNat ∧ u.toNat ≤ 0x7a then u - 0x20 else u

/-- What the documentation of Qt and xkbcommon promises where the shipped defaults rely on it:
upper case of ASCII text and of no text, and the keysyms of the defaults under their own names. -/
structure Platform.Documented (p : Platform) : Prop where
  toUpper_ascii : ∀ s : QString, (∀ u ∈ s, u.toNat < 0x80) → p.toUpper s = s.map asciiUpper
  toUpper_eq_nil : ∀ s, p.toUpper s = [] → s = []
  keysym_name : ∀ record ∈ unchordedDefaults, hasMatch numericToken record.key = false →
    ∃ symbol, p.keysymFromName (toUtf8 record.key) = some symbol ∧
      p.keysymGetName symbol = some (toUtf8 record.key)

section Chords
variable {p : Platform} {record : BindingConfiguration}

end Chords

end HyprShelld.Hyprland
