import Semlift.Files.Tree

/-!
The files of a host before anything is run on it: directories, devices, the list of users and
programs.
-/

namespace Semlift.Host

open Semlift.Files

def directories : List String :=
  ["bin", "boot", "dev", "etc", "home", "lib", "lib64", "media", "mnt", "opt", "proc", "root",
    "run", "sbin", "srv", "sys", "tmp", "usr", "usr/bin", "usr/games", "usr/include", "usr/lib",
    "usr/local", "usr/local/bin", "usr/local/etc", "usr/local/include", "usr/local/lib",
    "usr/local/sbin", "usr/local/share", "usr/local/src", "usr/sbin", "usr/share", "usr/src",
    "var", "var/cache", "var/lib", "var/log", "var/tmp"]

/-- The programs that run scripts and those that do what commands of the language do. -/
def programs : List String :=
  ["sh", "dash", "echo", "printf", "true", "false", "test", "[", "pwd", "cat", "sleep", "kill"]

/-- Programs that are there without being run by anything here. -/
def otherPrograms : List String :=
  ["awk", "base64", "basename", "bash", "chmod", "chown", "comm", "cp", "cut", "date", "dd", "df",
    "diff", "dirname", "du", "env", "expand", "expr", "factor", "find", "fold", "grep", "head",
    "hostname", "id", "install", "join", "link", "ln", "ls", "md5sum", "mkdir", "mkfifo", "mktemp",
    "mv", "nice", "nl", "nohup", "nproc", "od", "paste", "perl", "pr", "ps", "readlink", "realpath",
    "rm", "rmdir", "sed", "seq", "sha1sum", "sha256sum", "shuf", "sort", "split", "stat", "stty",
    "sum", "sync", "tac", "tail", "tar", "tee", "timeout", "touch", "tr", "truncate", "tsort",
    "tty", "uname", "uniq", "wc", "which", "who", "whoami", "xargs", "yes"]

def devices : List (String × Entry) :=
  [("null", .drain), ("stdin", .stream 0), ("stdout", .stream 1), ("stderr", .stream 2)]

def withDirectory (t : Tree) (path : String) : Tree := t.set (names path) .directory

/-- A program in the directories that programs are in. -/
def withProgram (t : Tree) (name : String) : Tree :=
  (t.set ["bin", name] (.program name)).set ["usr", "bin", name] (.program name)

def root : Tree :=
  let tree := directories.foldl withDirectory Tree.empty
  let tree := devices.foldl (fun (t : Tree) (n, e) => t.set ["dev", n] e) tree
  let tree := tree.set ["etc", "passwd"] (.file "root:x:0:0:root:/root:/bin/bash\n")
  (programs ++ otherPrograms).foldl withProgram tree

end Semlift.Host
