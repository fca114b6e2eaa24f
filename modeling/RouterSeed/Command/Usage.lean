/-
What the program tells about itself.
-/

namespace RouterSeed

/-- The version of the program. -/
def programVersion : String := "0.1.0"

/-- The line that names the program and its version. -/
def versionLine (program : String) : String := program ++ " " ++ programVersion ++ "\n"

/-- How to use the program. -/
def usage (program : String) : String :=
  "\n".intercalate
    ["Operator tools for an I2P reseed server",
      "",
      "Usage: " ++ program ++ " [--log-level LEVEL] COMMAND",
      "",
      "  keygen -s SIGNER [-o DIR] [--bits N]",
      "      Generate an RSA signing key and a self-signed certificate",
      "  verify FILE [-s SIGNER] [-k DIR] [--purpose NAME] [--extract DIR]",
      "      Verify the signature of an su3 file",
      "  build [-c FILE] [-o DIR]",
      "      Build one generation of su3 bundles and write them to a directory",
      "  run [-c FILE]",
      "      Rebuild the bundle cache periodically until stopped",
      "  help [COMMAND]",
      "      Print this text",
      "",
      "  -h, --help     Print this text",
      "  -V, --version  Print the version",
      ""]

end RouterSeed
