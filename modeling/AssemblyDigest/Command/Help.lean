import AssemblyDigest.Text

/-! # Help

The texts that explain the program to its user.
-/

namespace AssemblyDigest

namespace Command

/-- The name and version of the program. -/
def versionText : Text := "assembly-spitter 0.1.0\n".toList

/-- The help of the program. -/
def helpText : Text :=
  ("Collect inline assembly blocks from Solidity sources\n" ++
   "\n" ++
   "Usage: assembly-spitter <COMMAND>\n" ++
   "\n" ++
   "Commands:\n" ++
   "  scan  扫描工作区并生成 assembly_snippets.md\n" ++
   "  help  Print this message or the help of the given subcommand(s)\n" ++
   "\n" ++
   "Options:\n" ++
   "  -h, --help     Print help\n" ++
   "  -V, --version  Print version\n").toList

/-- The help of the command `scan`. -/
def scanHelpText : Text :=
  ("扫描工作区并生成 assembly_snippets.md\n" ++
   "\n" ++
   "Usage: assembly-spitter scan [OPTIONS]\n" ++
   "\n" ++
   "Options:\n" ++
   "      --root <ROOT>              工作区根目录 [default: .]\n" ++
   "      --output <OUTPUT>          输出文件；默认写到 <root>/assembly_snippets.<md|json>\n" ++
   "      --stdout                   输出到标准输出而不是文件\n" ++
   "      --format <FORMAT>          输出格式 [possible values: markdown, json]\n" ++
   "      --config <CONFIG>          配置文件路径（TOML）\n" ++
   "      --scope-file <SCOPE_FILE>  范围声明文件名（默认 .scope）\n" ++
   "      --extension <EXTENSION>    源文件扩展名（默认 .sol）\n" ++
   "      --language <LANGUAGE>      代码块语言标记（默认 solidity）\n" ++
   "  -h, --help                     Print help\n").toList

/-- The help of the command `help`. -/
def helpHelpText : Text :=
  ("Print this message or the help of the given subcommand(s)\n" ++
   "\n" ++
   "Usage: assembly-spitter help [COMMAND]...\n" ++
   "\n" ++
   "Arguments:\n" ++
   "  [COMMAND]...  Print help for the subcommand(s)\n").toList

/-- The complaint about arguments that cannot be read. -/
def misuseText : Text :=
  "error: invalid arguments\n\nFor more information, try '--help'.\n".toList

end Command

end AssemblyDigest
