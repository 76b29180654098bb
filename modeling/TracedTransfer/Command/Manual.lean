/-
The texts that the program prints about itself: help, completions and
the manual. All are made from the table of commands.
-/
import TracedTransfer.Command.Arguments

namespace TracedTransfer.Command.Manual

/-- What the program is for. -/
def about : String := "Fetch, inspect and upload external resources with operation tracing"

/-- An option as it is written. -/
def shown (s : Switch) : String :=
  (match s.short with
    | some c => "-" ++ String.singleton c ++ ", "
    | none => "    ")
    ++ "--" ++ s.long ++ (if s.value.isSome then " <PATH>" else "")

/-- How a command is written. -/
def synopsis (e : Entry) : String :=
  e.operands.foldl (fun acc (name, _) => acc ++ " <" ++ name ++ ">")
    (if e.options.isEmpty then e.name else e.name ++ " [OPTIONS]")

/-- The lines of help. -/
def help : List String :=
  [about, "", "Usage: resfetch [OPTIONS] <COMMAND>", "", "Commands:"]
    ++ entries.flatMap (fun e => ["  " ++ synopsis e, "      " ++ e.about]
      ++ e.options.map fun s => "      " ++ shown s ++ "  " ++ s.about)
    ++ ["", "Options:"]
    ++ (commonOptions ++ [Switch.help]).map fun s => "  " ++ shown s ++ "  " ++ s.about

/-- The lines of the manual. -/
def manual : List String :=
  [".TH resfetch 1", ".SH NAME", "resfetch \\- " ++ about, ".SH SYNOPSIS",
    "resfetch [OPTIONS] <COMMAND>", ".SH OPTIONS"]
    ++ (commonOptions ++ [Switch.help]).flatMap (fun s => [".TP", shown s, s.about])
    ++ [".SH COMMANDS"]
    ++ entries.flatMap fun e => [".TP", synopsis e, e.about]

/-- The words that complete the first argument. -/
def words : String := " ".intercalate names

/-- The lines of completions for a shell. -/
def completions : Shell → List String
  | .bash => ["complete -W '" ++ words ++ "' resfetch"]
  | .elvish =>
    ["set edit:completion:arg-completer[resfetch] = \x7b|@words|"]
      ++ names.map ("  put " ++ ·) ++ ["\x7d"]
  | .fish => ["complete -c resfetch -n __fish_use_subcommand -f -a '" ++ words ++ "'"]
  | .powershell =>
    ["Register-ArgumentCompleter -Native -CommandName resfetch -ScriptBlock \x7b",
      "  -split '" ++ words ++ "'", "\x7d"]
  | .zsh => ["#compdef resfetch", "compadd " ++ words]

/-- Lines as one text. -/
def text (lines : List String) : String := lines.foldl (fun acc l => acc ++ l ++ "\n") ""

end TracedTransfer.Command.Manual
