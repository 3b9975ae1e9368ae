import HyprShelld.Renderer.Emission

/-! The bindings a state is rendered to: the shipped defaults it keeps, then every submap with
its own bindings, then the top level. -/
namespace HyprShelld.Compositor
open Hyprland

variable (p : Platform) (actionCatalog : ActionCatalog)

section Lists
variable {α β : Type} {f : α → Option β}

end Lists

section Calls
variable {p : Platform} {actionCatalog : ActionCatalog}

variable {kept : BindingConfiguration → Bool} {path : QString}

end Calls

section Statements
variable {p : Platform} {actionCatalog : ActionCatalog} {state : DesiredState}

end Statements

end HyprShelld.Compositor
