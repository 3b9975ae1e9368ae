import HyprShelld.Desired.RoundTrip

/-! What an accepted state says about its submaps and the chords of its bindings. -/
namespace HyprShelld.Hyprland

variable {p : Platform}

section Submaps
variable {submaps : List SubmapConfiguration}

end Submaps

section Chords

variable {submaps : List SubmapConfiguration} {all : List BindingConfiguration}

end Chords

section Accepted
variable {catalog : Catalog} {actionCatalog : ActionCatalog} {state : DesiredState}

end Accepted

end HyprShelld.Hyprland
