import JadeEditor.Files.Tree

/-!
# Replacing the content of a file

Writing to a path that leads to a file changes what is in that file and nothing else: the
same files and directories are there, and every path leads where it led before. A write
that fails leaves the file as it is, or broken off.
-/

namespace JadeEditor.FileTree

set_option autoImplicit false

section Put

variable {tree : FileTree} {l : Location} {old : Utf8.Bytes}

end Put

end JadeEditor.FileTree
