/-! # The help text of the command line

There is a short form, and a long one in which every flag has a paragraph.

* `shortHelp`, `longHelp`: the texts. -/

namespace PaneRelay.Flags

/-- What both forms start with. -/
def helpHead : List String :=
  ["Spawn shell panes and stream their output over a loopback WebSocket", "",
    "Usage: panemux [OPTIONS] [-- <COMMAND>...]", ""]

/-- Lines as a text. -/
def linesOf (l : List String) : String := String.join (l.map fun s => s ++ "\n")

/-- **The short form.** -/
def shortHelp : String :=
  linesOf (helpHead ++
    ["Arguments:",
      "  [COMMAND]...  Command and arguments to run in each pane",
      "",
      "Options:",
      "  -c, --config <CONFIG>    Config file (defaults to ./panemux.toml when present)",
      "  -n, --panes <PANES>      Number of panes to spawn",
      "  -p, --port <PORT>        Port for the stream hub (0 = auto-select)",
      "      --backend <BACKEND>  Terminal backend for new panes" ++
        " [possible values: auto, native, pipes]",
      "  -d, --debug              Enable debug logging",
      "  -h, --help               Print help (see more with '--help')"])

/-- **The long form.** -/
def longHelp : String :=
  linesOf (helpHead ++
    ["Arguments:",
      "  [COMMAND]...",
      "          Command and arguments to run in each pane",
      "",
      "Options:",
      "  -c, --config <CONFIG>",
      "          Config file (defaults to ./panemux.toml when present)",
      "",
      "  -n, --panes <PANES>",
      "          Number of panes to spawn",
      "",
      "  -p, --port <PORT>",
      "          Port for the stream hub (0 = auto-select)",
      "",
      "      --backend <BACKEND>",
      "          Terminal backend for new panes",
      "",
      "          Possible values:",
      "          - auto:   Native PTY, falling back to pipes",
      "          - native: Native PTY only",
      "          - pipes:  stdin/stdout/stderr pipes",
      "",
      "  -d, --debug",
      "          Enable debug logging",
      "",
      "  -h, --help",
      "          Print help (see a summary with '-h')"])

end PaneRelay.Flags
