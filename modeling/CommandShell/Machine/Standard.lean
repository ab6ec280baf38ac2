import CommandShell.Tool.Table

/-!
The files that every machine has.
-/

namespace CommandShell

namespace Files

/-- Make a node if its place is free. -/
def placed (files : Files) (path : String) (node : Inode → Node) : Files :=
  match files.create root (Bytes.ofText path) node with
  | .ok files => files
  | .error _ => files

def withDirectory (files : Files) (path : String) : Files :=
  files.placed path fun parent => .directory parent []

/-- The programs and the few other files that every machine has. -/
def standard : Files :=
  let files := ["/usr", "/usr/bin", "/etc", "/tmp", "/dev"].foldl withDirectory empty
  let files := Tool.names.foldl (fun files name =>
    files.placed ("/usr/bin/" ++ name) fun _ => .tool name) files
  let files := files.placed "/bin" fun _ => .link (Bytes.ofText "usr/bin")
  let files := files.placed "/etc/passwd" fun _ =>
    .file (Bytes.ofText "root:x:0:0:root:/root:/bin/sh\n") false
  let files := files.withDirectory "/dev/fd"
  [("/dev/null", Device.null), ("/dev/zero", .zero), ("/dev/full", .full), ("/dev/stdin", .open 0),
    ("/dev/stdout", .open 1), ("/dev/stderr", .open 2), ("/dev/fd/0", .open 0),
    ("/dev/fd/1", .open 1), ("/dev/fd/2", .open 2), ("/dev/fd/3", .open 3), ("/dev/fd/4", .open 4),
    ("/dev/fd/5", .open 5), ("/dev/fd/6", .open 6), ("/dev/fd/7", .open 7), ("/dev/fd/8", .open 8),
    ("/dev/fd/9", .open 9)].foldl
    (fun files (path, device) => files.placed path fun _ => .device device) files

end Files

end CommandShell
