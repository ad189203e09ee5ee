import DevMachines.Profile
import DevMachines.Terminal.Markup
import DevMachines.Terminal.Table

/-!
# Profiles as a table

One row for each profile, with a line for each of its steps and of its shared folders.  The fields
of the cells are texts with markup.  Paths are escaped, so they are shown as they are; the names of
profiles, boxes and steps are not.
-/

namespace DevMachines.Overview

/-- What a cell shows that has nothing to show. -/
def nothing : String := "[dim]-[/]"

/-- A path in a cell. -/
def pathText (path : String) : String := String.ofList (Terminal.escape path.toList)

/-- The line of a step, which has a number. -/
def stepText (number : Nat) (s : Step) : String :=
  toString number ++ ". " ++ s.name ++ " (" ++ pathText s.path ++
    (if s.privileged then ", privileged)" else ")")

/-- The line of a shared folder. -/
def folderText (f : SharedFolder) : String := pathText f.hostPath ++ " → " ++ pathText f.guestPath

/-- Lines in one cell. -/
def cellText (lines : List String) : String :=
  if lines.isEmpty then nothing else "\n".intercalate lines

/-- The cells of a profile, with markup. -/
def cells (p : Profile) : List String := [
  p.name, p.box,
  cellText (p.steps.zipIdx.map fun (s, i) => stepText (i + 1) s),
  cellText (p.folders.map folderText)]

/-- The title of the table. -/
def title : String := "VM Profiles"

/-- The headers of the columns. -/
def headers : List String := ["Profile", "Box", "Provisioning", "Shared Folders"]

/-- A table of profiles from what its rows show. -/
def tableOf (rows : List (List (List Char))) : Terminal.Table :=
  { title, headers := headers.map String.toList, rows }

/-- What the rows show, or the first fault in their markup; the cells are read column by column. -/
def shownRows (s : ProfileSet) : Except Terminal.MarkupFault (List (List (List Char))) := do
  let columns ← (List.range headers.length).mapM fun i =>
    s.profiles.mapM fun p => Terminal.render ((cells p).getD i "").toList
  pure ((List.range s.profiles.length).map fun r => columns.map fun column => column.getD r [])

/-- The greatest width at which no column has room for text. -/
def blankWidth : Nat := headers.length + 1 + Terminal.cellPadding

/-- The profiles as a table on a terminal of a width.  A table without room for text is drawn without
reading the cells. -/
def print (width : Nat) (s : ProfileSet) : Except Terminal.MarkupFault String := do
  let rows ← if width ≤ blankWidth then pure (s.profiles.map fun p => (cells p).map fun _ => [])
    else shownRows s
  pure ((tableOf rows).print width)

end DevMachines.Overview
