/-!
# Help texts

What the command line tells about itself, line by line, for a terminal of eighty columns.
-/

namespace XmlToJson.CommandLine

def programName : String := "xml-json-bridge"

def version : String := "0.1.0"

def programHelp : List String :=
  ["usage: xml-json-bridge [-h] [--version] [--verbose] [--quiet]",
    "                       \x7bconvert,check\x7d ...",
    "",
    "Convert XML documents into JSON",
    "",
    "positional arguments:",
    "  \x7bconvert,check\x7d  Available commands",
    "    convert        Convert XML files to JSON",
    "    check          Check that XML files convert cleanly",
    "",
    "options:",
    "  -h, --help       show this help message and exit",
    "  --version        show program's version number and exit",
    "  --verbose, -v    Verbose output",
    "  --quiet, -q      Quiet output"]

def convertHelp : List String :=
  ["usage: xml-json-bridge convert [-h] [--recursive] [--keep-strings]",
    "                               [--max-depth MAX_DEPTH] [--indent INDENT]",
    "                               [--output OUTPUT]",
    "                               [--preset \x7bdefault,preserve_strings,untrusted_input\x7d]",
    "                               [--config CONFIG]",
    "                               paths [paths ...]",
    "",
    "positional arguments:",
    "  paths                 XML files or directories to convert",
    "",
    "options:",
    "  -h, --help            show this help message and exit",
    "  --recursive, -r       Recursively process directories",
    "  --keep-strings        Keep all values as strings instead of coercing numbers",
    "                        and booleans",
    "  --max-depth MAX_DEPTH",
    "                        Maximum element nesting depth",
    "  --indent INDENT       JSON indentation (default: compact)",
    "  --output OUTPUT, -o OUTPUT",
    "                        Output file (default: stdout)",
    "  --preset \x7bdefault,preserve_strings,untrusted_input\x7d",
    "                        Converter configuration preset",
    "  --config CONFIG, -c CONFIG",
    "                        Configuration file path"]

def checkHelp : List String :=
  ["usage: xml-json-bridge check [-h] [--recursive] [--format \x7bjson,text\x7d]",
    "                             [--config CONFIG]",
    "                             paths [paths ...]",
    "",
    "positional arguments:",
    "  paths                 XML files or directories to check",
    "",
    "options:",
    "  -h, --help            show this help message and exit",
    "  --recursive, -r       Recursively process directories",
    "  --format \x7bjson,text\x7d, -f \x7bjson,text\x7d",
    "                        Output format",
    "  --config CONFIG, -c CONFIG",
    "                        Configuration file path"]

/-- The full name of a command. -/
def commandName (command : String) : String := programName ++ " " ++ command

/-- The help on the program or the command with the given full name. -/
def helpOn (name : String) : List String :=
  if name = commandName "convert" then convertHelp
  else if name = commandName "check" then checkHelp
  else programHelp

end XmlToJson.CommandLine
