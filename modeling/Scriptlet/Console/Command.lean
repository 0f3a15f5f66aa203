/-!
# Command lines

What the arguments of the program ask for. Two flags and one file may be given, in any order and
each at most once. `--` ends the flags, so that a file may have any name, and a lone `-` is a file
name too. The arguments are read from left to right, and the first that asks for the version or is
wrong decides.
-/

namespace Scriptlet

/-- How to run sources, and where the source is. -/
structure Options where
  /-- List the tokens of a source before anything else. -/
  tokens : Bool := false
  /-- Print the tree of a source instead of evaluating it. -/
  tree : Bool := false
  /-- The file to run. Without a file, sources are read line by line. -/
  file : Option String := none
  deriving DecidableEq, Repr

/-- What a command line asks for. -/
inductive Command where
  | version
  | run (options : Options)
  deriving DecidableEq, Repr

/-- The options with a file added, unless its name is empty or there is a file already. -/
def Options.withFile? (options : Options) (path : String) : Option Options :=
  if path = "" ∨ options.file.isSome then none else some { options with file := some path }

namespace Command

/-- Reads arguments that can only be files. -/
def parseFiles (options : Options) : List String → Option Command
  | [] => some (.run options)
  | path :: rest =>
      match options.withFile? path with
      | some options => parseFiles options rest
      | none => none

/-- Reads arguments behind those that gave the options so far. -/
def parseArgs (options : Options) : List String → Option Command
  | [] => some (.run options)
  | arg :: rest =>
      if arg = "--" then
        parseFiles options rest
      else if arg = "--version" ∨ "-V".toList.isPrefixOf arg.toList then
        some .version
      else if arg = "--tokens" then
        if options.tokens then none else parseArgs { options with tokens := true } rest
      else if arg = "--ast" then
        if options.tree then none else parseArgs { options with tree := true } rest
      else if arg = "-" ∨ arg.toList.head? ≠ some '-' then
        match options.withFile? arg with
        | some options => parseArgs options rest
        | none => none
      else
        none

/-- What a command line asks for, or `none` if it is wrong. -/
def parse (args : List String) : Option Command :=
  parseArgs {} args

end Command

end Scriptlet
