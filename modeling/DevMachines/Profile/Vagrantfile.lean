import DevMachines.Profile

/-!
# Profiles as a Vagrantfile

A Vagrantfile declares machines in Ruby.  Every profile becomes one block, whose parameter has the
name of the profile; every field becomes a literal in double quotes.  Inside such a literal a
backslash, a double quote and the beginning of an interpolation have a meaning of their own, which a
backslash before them takes away.
-/

namespace DevMachines.Vagrantfile

/-- The characters of a text between double quotes. -/
def escape : List Char → List Char
  | [] => []
  | c :: rest =>
      if c = '\\' ∨ c = '"' then '\\' :: c :: escape rest
      else if c = '#' ∧ rest.head? = some '\x7b' then '\\' :: c :: escape rest
      else c :: escape rest

/-- A text as a literal. -/
def literal (text : String) : String := String.ofList ('"' :: (escape text.toList ++ ['"']))

/-- A truth value as a literal. -/
def truthLiteral (b : Bool) : String := if b then "true" else "false"

/-- The line of a provisioning step. -/
def stepLine (machine : String) (s : Step) : String :=
  "    " ++ machine ++ ".vm.provision " ++ literal s.name ++ ", type: " ++ literal s.kind.name ++
    ", path: " ++ literal s.path ++ ", privileged: " ++ truthLiteral s.privileged

/-- The line of a shared folder. -/
def folderLine (machine : String) (f : SharedFolder) : String :=
  "    " ++ machine ++ ".vm.synced_folder " ++ literal f.hostPath ++ ", " ++ literal f.guestPath

/-- The block of a profile. -/
def block (p : Profile) : List String :=
  ["  config.vm.define " ++ literal p.name ++ " do |" ++ p.name ++ "|",
    "    " ++ p.name ++ ".vm.box = " ++ literal p.box] ++
  p.steps.map (stepLine p.name) ++ p.folders.map (folderLine p.name) ++ ["  end"]

/-- The lines before the first block. -/
def opening (version : String) : List String := [
  "# -*- mode: ruby -*-",
  "# vi: set ft=ruby :",
  "# Generated by moqtbox " ++ version ++ ". Edit settings.yml instead.",
  "",
  "Vagrant.configure(\"2\") do |config|"]

/-- The Vagrantfile of profiles; an empty line stands between two blocks. -/
def render (version : String) (s : ProfileSet) : String :=
  let blocks := List.intercalate [""] (s.profiles.map block)
  "\n".intercalate (opening version ++ blocks ++ ["end"]) ++ "\n"

end DevMachines.Vagrantfile
