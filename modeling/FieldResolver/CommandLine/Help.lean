/-
**Texts of the command line.**
-/

import FieldResolver.CommandLine.Arguments

namespace FieldResolver.CommandLine

/-- What the program says when it is given nothing to do. -/
def hint : String := "emusync - use --help to see available commands\n"

/-- The version of the program. -/
def version : String := "emusync 0.0.1-alpha.0\n"

/-- Lines with a line break behind each. -/
def lines (texts : List String) : String := String.join (texts.map (· ++ "\n"))

/-- The help on a topic. -/
def help : Topic → String
  | .program =>
    lines
      ["Emusync - local emulator for AppSync resolvers",
        "",
        "Usage: emusync [COMMAND]",
        "",
        "Commands:",
        "  resolve  Resolve one field of an API definition. Arguments are read from stdin",
        "  render   Render a single mapping template. The context is read from stdin",
        "  help     Print this message or the help of the given subcommand(s)",
        "",
        "Options:",
        "  -h, --help     Print help",
        "  -V, --version  Print version"]
  | .resolve =>
    lines
      ["Resolve one field of an API definition. Arguments are read from stdin",
        "",
        "Usage: emusync resolve [OPTIONS] --type <TYPE_NAME> --field <FIELD> <API_FILE>",
        "",
        "Arguments:",
        "  <API_FILE>  Path to the API definition (JSON)",
        "",
        "Options:",
        "      --type <TYPE_NAME>  Parent type of the field, e.g. Query",
        "      --field <FIELD>     Field name",
        String.join
          ["      --request           Read a full field request (arguments, source, identity, ",
            "...) from stdin"],
        "  -h, --help              Print help"]
  | .render =>
    lines
      ["Render a single mapping template. The context is read from stdin",
        "",
        "Usage: emusync render <TEMPLATE_FILE>",
        "",
        "Arguments:",
        "  <TEMPLATE_FILE>  Path to the template file",
        "",
        "Options:",
        "  -h, --help  Print help"]

end FieldResolver.CommandLine
