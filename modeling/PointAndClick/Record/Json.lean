import PointAndClick.Json.Basic
import PointAndClick.Record.Basic

/-!
# Records as JSON
-/

set_option autoImplicit false

namespace PointAndClick.Record

/-- A record with its command and text, if it has them. -/
def toJson (r : Record) : Json :=
  .object <|
    [("offset", .int r.offset), ("type", .text r.kindName)] ++
      match r.commandName? with
      | some name => [("command", .text name), ("text", .text r.text)]
      | none => []

end PointAndClick.Record
