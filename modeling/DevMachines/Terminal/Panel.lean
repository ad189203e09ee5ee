import DevMachines.Terminal.Wrap

/-!
# A text in a frame

A panel takes the whole width of the terminal.  Its title stands in the middle of the upper edge; a
panel that is too narrow for a title has none.
-/

namespace DevMachines.Terminal

/-- The upper edge with a title, without its corners. -/
def titledEdge (width : Nat) (title : List Char) : List Char :=
  let title := cutLine .fold (width - 2) (' ' :: (title ++ [' ']))
  let excess := width - 2 - cellCount title
  '─' :: List.replicate (excess / 2) '─' ++ title ++ List.replicate (excess - excess / 2) '─' ++ ['─']

/-- The upper edge without its corners. -/
def upperEdge (width : Nat) (title : List Char) : List Char :=
  if width ≤ 2 then List.replicate width '─' else titledEdge width title

/-- A panel with a title around a text, as it is printed on a terminal of a width. -/
def panel (width : Nat) (title : String) (text : List Char) : String :=
  let inner := width - 2
  let body := if inner ≤ 2 then [] else (wrap .fold (inner - 2) text).map fun line =>
    '│' :: ' ' :: fitCells (inner - 2) line ++ [' ', '│']
  printedLines <|
    ['╭' :: upperEdge inner title.toList ++ ['╮']] ++ body ++
    ['╰' :: List.replicate inner '─' ++ ['╯']]

end DevMachines.Terminal
