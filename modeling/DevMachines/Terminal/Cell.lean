import DevMachines.Terminal.CellTable

/-!
# How much room a text takes

Room on a terminal is counted in cells.  `cellCount` adds up the widths of characters; a joiner hides
the character after it, and a variation selector widens the symbol before it.  `fitCells` brings a
text to an exact width, and puts a blank where a wide character would be cut in half.
-/

namespace DevMachines.Terminal

/-- The cells that one character takes by itself. -/
def cellWidth (c : Char) : Nat :=
  if ' ' ≤ c ∧ c ≤ '~' then 1
  else if Text.inRanges zeroWidthRanges c.toNat then 0
  else if Text.inRanges wideRanges c.toNat then 2
  else 1

/-- Joins two characters into one picture. -/
def joiner : Char := '\u200d'

/-- Asks for the picture of the symbol before it. -/
def pictureSelector : Char := '\ufe0f'

/-- The cells of characters; `last` is the symbol that a selector would widen. -/
def cellCountFrom : Option Char → List Char → Nat
  | _, [] => 0
  | last, [c] =>
      if c = joiner then 0
      else if c = pictureSelector then
        (if last.any fun l => Text.inRanges pictureRanges l.toNat then 1 else 0)
      else cellWidth c
  | last, c :: d :: rest =>
      if c = joiner then cellCountFrom last rest
      else if c = pictureSelector then
        (if last.any fun l => Text.inRanges pictureRanges l.toNat then 1 else 0) +
          cellCountFrom none (d :: rest)
      else
        let width := cellWidth c
        width + cellCountFrom (if width = 0 then last else some c) (d :: rest)

/-- The cells that a text takes. -/
def cellCount (cs : List Char) : Nat := cellCountFrom none cs

/-! ## Clusters

A text must not be cut inside of what is one picture on the screen, so cutting works on clusters: a
visible character with everything behind it that takes no cell of its own. -/

/-- Characters that are shown together, and their cells. -/
structure Cluster where
  chars : List Char
  width : Nat
  deriving DecidableEq, Repr

/-- Adds characters to the last of the clusters, which are in reverse order; without one they are a
cluster by themselves. -/
def Cluster.join (chars : List Char) (more : Nat) : List Cluster → List Cluster
  | [] => [⟨chars, 0⟩]
  | last :: before => ⟨last.chars ++ chars, last.width + more⟩ :: before

/-- Gathers clusters in reverse order; `last` is the symbol that a selector would widen. -/
def gatherClusters (last : Option Char) (done : List Cluster) : List Char → List Cluster
  | [] => done
  | [c] =>
      if c = joiner then Cluster.join [c] 0 done
      else if c = pictureSelector then
        Cluster.join [c] (if last.any fun l => Text.inRanges pictureRanges l.toNat then 1 else 0) done
      else if cellWidth c = 0 then Cluster.join [c] 0 done
      else ⟨[c], cellWidth c⟩ :: done
  | c :: d :: rest =>
      if c = joiner then
        if done.isEmpty then gatherClusters last [⟨[c], 0⟩] (d :: rest)
        else gatherClusters last (Cluster.join [c, d] 0 done) rest
      else if c = pictureSelector then
        let more := if last.any fun l => Text.inRanges pictureRanges l.toNat then 1 else 0
        gatherClusters none (Cluster.join [c] more done) (d :: rest)
      else if cellWidth c = 0 then gatherClusters last (Cluster.join [c] 0 done) (d :: rest)
      else gatherClusters (some c) (⟨[c], cellWidth c⟩ :: done) (d :: rest)

/-- The clusters of a text. -/
def clusters (cs : List Char) : List Cluster := (gatherClusters none [] cs).reverse

/-- The first clusters that take `room` cells, with a blank for one that would be cut. -/
def takeCells : Nat → List Cluster → List Char
  | _, [] => []
  | room, cluster :: rest =>
      if room = 0 then []
      else if cluster.width ≤ room then cluster.chars ++ takeCells (room - cluster.width) rest
      else [' ']

/-- Cuts a text, or fills it with blanks, to an exact number of cells. -/
def fitCells (width : Nat) (cs : List Char) : List Char :=
  let count := cellCount cs
  if count ≤ width then cs ++ List.replicate (width - count) ' ' else takeCells width (clusters cs)

/-- Cuts clusters into pieces of at most `width` cells; the first piece is under way and has `used`
cells. -/
def chopFrom (width : Nat) : Nat → List Cluster → List (List Char)
  | _, [] => [[]]
  | used, cluster :: rest =>
      if width < used + cluster.width then
        match chopFrom width cluster.width rest with
        | piece :: pieces => [] :: (cluster.chars ++ piece) :: pieces
        | [] => [[], cluster.chars]
      else
        match chopFrom width (used + cluster.width) rest with
        | piece :: pieces => (cluster.chars ++ piece) :: pieces
        | [] => [cluster.chars]

/-- Cuts a text into pieces of at most `width` cells. -/
def chop (width : Nat) (cs : List Char) : List (List Char) := chopFrom width 0 (clusters cs)

end DevMachines.Terminal
