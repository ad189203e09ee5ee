import DevMachines.Yaml.Node.Reader
import DevMachines.Yaml.Scalar
import DevMachines.Value.Equality

/-!
# The value of a document

Tags turn a tree of nodes into a value.  A mapping may *merge* others: their entries come before its
own, and its own entries win.  An alias becomes the value of its node, with the same label, and an
alias inside its own node becomes `Value.again`.  The root does not count as a node around what it
contains, so the value of each of its items and entries is complete by itself.

## Which fault is reported

A document may have several faults and only one is reported: the one at the least depth, and of
those the one furthest to the left.  A fault in what a collection *contains* counts as one level
deeper than the collection.  So the result of building a node is either a value or a fault with its
depth, and `Built.both` keeps the shallower of two faults.
-/

namespace DevMachines.Yaml

/-- A value, or the fault at the least depth. -/
abbrev Built (α : Type) : Type := Except (Nat × ValueFault) α

/-- Both results, or the shallower fault; of two at one depth the first. -/
def Built.both {α β : Type} (a : Built α) (b : Built β) : Built (α × β) :=
  match a, b with
  | .ok x, .ok y => .ok (x, y)
  | .ok _, .error e => .error e
  | .error e, .ok _ => .error e
  | .error e, .error f => if f.1 < e.1 then .error f else .error e

/-- All results, or the shallowest fault. -/
def Built.all {α : Type} : List (Built α) → Built (List α)
  | [] => .ok []
  | a :: rest => (Built.both a (Built.all rest)).map fun (x, xs) => x :: xs

/-- The tags that a node can have a value with. -/
def isKnownTag (tag : String) : Bool :=
  [Tag.null, Tag.bool, Tag.int, Tag.float, Tag.text, Tag.binary, Tag.timestamp, Tag.sequence,
    Tag.mapping, Tag.set, Tag.orderedMap, Tag.pairs].contains tag

/-- The tags of collections. -/
def isCollectionTag (tag : String) : Bool :=
  [Tag.sequence, Tag.mapping, Tag.set, Tag.orderedMap, Tag.pairs].contains tag

/-- The text of a node that is used as a scalar.  A mapping counts as one if it has an entry whose
key carries the value tag; that entry's value then counts. -/
def scalarText (document : Node) : Nat → Node → Except ValueFault String
  | 0, _ => .error .malformed
  | fuel + 1, n =>
      match n.deref document with
      | .scalar _ _ text => .ok text
      | .mapping _ _ entries =>
          match entries.find? fun (k, _) => (k.deref document).tag == Tag.value with
          | some (_, v) => scalarText document fuel v
          | none => .error .malformed
      | _ => .error .malformed

/-- Gives a key with the value tag the tag of texts. -/
def plainKey (key : Node) : Node :=
  match key with
  | .scalar label tag text => if tag = Tag.value then .scalar label Tag.text text else key
  | key => key

/-- The entries of a mapping once the mappings that it merges are written out: what is merged comes
first, and of a list of merged mappings the last comes first, so that an earlier one wins.  A mapping
that merges itself adds its other entries again. -/
def mergedEntries (document : Node) :
    Nat → List (Nat × List (Node × Node)) → Nat → List (Node × Node) →
      Except ValueFault (List (Node × Node))
  | 0, _, _, _ => .error .malformed
  | fuel + 1, merging, label, entries => do
      let isMerge (entry : Node × Node) : Bool := (entry.1.deref document).tag == Tag.merge
      let own := (entries.filter (!isMerge ·)).map fun (k, v) => (plainKey (k.deref document), v)
      let merging := (label, own) :: merging
      let entriesOf (n : Node) : Except ValueFault (List (Node × Node)) :=
        match n.deref document with
        | .mapping label _ entries =>
            match merging.lookup label with
            | some entries => .ok entries
            | none => mergedEntries document fuel merging label entries
        | _ => .error .malformed
      let merged ← (entries.filter isMerge).mapM fun (_, source) =>
        match source.deref document with
        | .mapping .. => entriesOf source
        | .sequence _ _ items => do
            let parts ← items.mapM entriesOf
            pure parts.reverse.flatten
        | _ => .error .malformed
      pure (merged.flatten ++ own)

/-- Builds the values of the entries of a mapping.  Keys must be usable as keys; a fault deeper inside
a key means that it is a collection, which is none. -/
def buildEntries (build : Node → Built Value) (depth : Nat) :
    List (Node × Node) → Built (List (Value × Value))
  | [] => .ok []
  | (k, v) :: rest =>
      let key := match build k with
        | .ok key => if key.isKey then .ok key else .error (depth, .malformed)
        | .error (d, f) => if depth < d then .error (depth, .malformed) else .error (d, f)
      (Built.both key (Built.both (build v) (buildEntries build depth rest))).map
        fun (k, v, more) => (k, v) :: more

/-- The entries of a map: a key that comes again keeps its first place and takes the last value. -/
def collectEntries (entries : List (Value × Value)) : List (Value × Value) :=
  entries.foldl (fun acc (k, v) => Value.insertEntry k v acc) []

/-- The elements of a set: an element that comes again is left out. -/
def collectElements (elements : List Value) : List Value :=
  elements.foldl (fun acc v => Value.insertElement v acc) []

/-- Builds the pair that an item of an ordered map or a list of pairs is: a mapping of one entry. -/
def buildPair (document : Node) (build : Node → Built Value) (depth : Nat) (item : Node) :
    Built Value :=
  match item.deref document with
  | .mapping _ _ [(k, v)] => (Built.both (build k) (build v)).map fun (a, b) => .pair none a b
  | _ => .error (depth, .malformed)

/-- Stops at the first item that is no pair; faults inside the items before it may still be at less
depth. -/
def buildPairs (document : Node) (build : Node → Built Value) (depth : Nat) (items : List Node) :
    Built (List Value) :=
  Built.all (items.map (buildPair document build depth))

/-- Builds the value of a node at a depth; `path` holds the labels of the collections around it, the
root apart, and `number` is the number of the document. -/
def buildValue (number : Nat) (document : Node) : Nat → List Nat → Nat → Node → Built Value
  | 0, _, depth, _ => .error (depth, .malformed)
  | fuel + 1, path, depth, n =>
      let n := n.deref document
      let node := match n with
        | .scalar l _ _ | .sequence l _ _ | .mapping l _ _ => l
        | .alias l => l
      let label : Label := ⟨number, node⟩
      let tag := n.tag
      if path.contains node then .ok (.again label)
      else if !isKnownTag tag then .error (depth, .malformed)
      else if !isCollectionTag tag then
        match scalarText document (document.size + 1) n with
        | .error f => .error (depth, f)
        | .ok text =>
            match n with
            | .mapping .. =>
                if tag = Tag.timestamp then .error (depth, .notText)
                else (scalarValue label tag text).mapError fun f => (depth, f)
            | _ => (scalarValue label tag text).mapError fun f => (depth, f)
      else
        let path := if depth = 0 then [] else node :: path
        let build := buildValue number document fuel path (depth + 1)
        let entriesOf : Built (List (Node × Node)) :=
          match n with
          | .mapping l _ entries =>
              (mergedEntries document (document.size + 1) [] l entries).mapError
                fun f => (depth + 1, f)
          | _ => .error (depth + 1, .malformed)
        if tag = Tag.mapping then do
          let entries ← entriesOf
          let entries ← buildEntries build (depth + 1) entries
          pure (.map (some label) (collectEntries entries))
        else if tag = Tag.set then do
          let entries ← entriesOf
          let entries ← buildEntries build (depth + 1) entries
          pure (.set (some label) (collectElements (entries.map (·.1))))
        else
          match n with
          | .sequence _ _ items =>
              if tag = Tag.sequence then
                (Built.all (items.map build)).map (.list (some label))
              else
                (buildPairs document build (depth + 1) items).map (.list (some label))
          | _ => .error (depth + 1, .malformed)

/-- The value of a document with a number. -/
def Node.toValue (number : Nat) (document : Node) : Except ValueFault Value :=
  (buildValue number document (document.size + 3) [] 0 document).mapError (·.2)

/-- The value of the only document of a text; a text without one is null.  The number tells the objects
of this document from those of others. -/
def readValue (number : Nat) (text : List Char) : Except ValueFault Value :=
  match readNode text with
  | .error f => .error (.ofRead f)
  | .ok none => .ok .null
  | .ok (some document) => document.toValue number

end DevMachines.Yaml
