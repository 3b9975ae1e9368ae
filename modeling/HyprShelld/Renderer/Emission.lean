import HyprShelld.Renderer.Generation

/-! The binding calls of a generation: which statements carry them, and that every module but
the key bindings is free of them. -/
namespace HyprShelld.Compositor
open Hyprland

/-- The binding calls of a statement, each with the submap whose body it stands in. -/
def LuaStatement.bindings : LuaStatement → List (QString × LuaCall)
  | .comment _ => []
  | .call luaCall => if luaCall.function = "hl.bind" then [([], luaCall)] else []
  | .defineSubmap name _ body => (body.filter (·.function = "hl.bind")).map (name, ·)

section Bodies
variable {bodies : QMap (List LuaStatement)}

end Bodies

section Payload
variable {p : Platform} {state : DesiredState} {catalog : Catalog} {actionCatalog : ActionCatalog}

end Payload

end HyprShelld.Compositor
