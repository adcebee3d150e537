import TraceAudit.Version.Basic

/-!
# Versions as components report them

Each component decorates its version in its own way. `Version.undecorate` removes the decoration,
`Version.ofReport?` reads what is left:

* ruby and the firewall library write a bullet, `* ddtrace (1.2.3)`;
* the agent writes `Agent 1.2.3 - Commit: …`, possibly with terminal colours;
* java appends `~` and a revision, or `-SNAPSHOT`; php appends `-nightly`;
* dotnet gives the name of an archive.
-/

namespace TraceAudit.Version

/-- What stands in parentheses behind a bullet and `name`. -/
def bullet? (name : String) (text : List Char) : Option (List Char) := do
  let text ← ['*'].isPrefixOf? text
  let text ← name.toList.isPrefixOf? (Text.trimStart text)
  let text ← ['('].isPrefixOf? (Text.trimStart text)
  [')'].isSuffixOf? text

/-- The text before the first `pattern`, all of it when there is none. -/
def before (pattern : String) (text : List Char) : List Char :=
  match Text.cutAt pattern.toList text with
  | some (before, _) => before
  | none => text

/-- The text after the first `pattern`, all of it when there is none. -/
def after (pattern : String) (text : List Char) : List Char :=
  match Text.cutAt pattern.toList text with
  | some (_, after) => after
  | none => text

/-- The text without terminal control sequences, which start with escape and `[` and run up to a
character from `@` to `~`; `inside` tells that a sequence has started. -/
def dropColours (inside : Bool) : List Char → List Char
  | [] => []
  | c :: rest =>
    if inside then dropColours (!('@' ≤ c && c ≤ '~')) rest
    else
      match c, rest with
      | '\x1b', '[' :: rest => dropColours true rest
      | c, rest => c :: dropColours false rest

/-- A character that may stand between an agent's version and the end of its report. -/
def isAgentSuffix (c : Char) : Bool := Text.isAsciiLetter c || c == '-'

/-- The report of a component without its decoration. -/
def undecorate (component : String) (text : List Char) : List Char :=
  if component = "ruby" then
    ((bullet? "ddtrace" text).or (bullet? "datadog" text)).getD text
  else if component = "libddwaf" then (bullet? "libddwaf" text).getD text
  else if component = "agent" then
    let text := after "Agent " (before " - Meta" (before " - Commit" text))
    Text.dropEndWhile isAgentSuffix (dropColours false text)
  else if component = "java" then Text.removeAll "-SNAPSHOT".toList (before "~" text)
  else if component = "dotnet" then
    let text := ("datadog-dotnet-apm-".toList.isPrefixOf? text).getD text
    (".tar.gz".toList.isSuffixOf? text).getD text
  else if component = "php" then Text.removeAll "-nightly".toList text
  else text

def ofReport? (component raw : String) : Option Version :=
  ofText? (undecorate component (Text.trim raw.toList))

end TraceAudit.Version
