import JadeEditor.Proofs.Cli.Ending

/-!
# What a verbose run prints

Debug messages go to the stream that the output of a command goes to. A verbose run prints
them first and then just what the run without them prints, with the same exit code and the
same file written. So the two outputs are the same only if there is no message at all,
which is the case only for a command that fails before it has settings.
-/

namespace JadeEditor.Cli

set_option autoImplicit false

open Terminal

end JadeEditor.Cli
