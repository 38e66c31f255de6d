import VisibilityRules.Content.Strip
import VisibilityRules.Files.Tree

set_option autoImplicit false

/-!
Posts with their raw content, in memory or in the files below a directory.
-/
namespace VisibilityRules

inductive StoreError where
  | notFound (post : String)
  | invalidPost (post : String)
  | failed (post : String) (cause : FileError)
  deriving DecidableEq, Repr

namespace StoreError

def message : StoreError → String
  | notFound post => "Post not found: " ++ post
  | invalidPost post => "Invalid post id: " ++ post
  | failed post cause => "I/O error on post " ++ post ++ ": " ++ cause.message

end StoreError

class PostStore (σ : Type) where
  read : σ → String → Except StoreError String
  write : σ → String → String → Except StoreError σ

def stripPost {σ : Type} [PostStore σ] (policy : Policy) (visitor : Visitor) (switches : Switches)
    (store : σ) (post : String) : Except StoreError (Bool × σ) := do
  -- Cuts what is hidden out of a post; tells whether the post has changed. It is written only then.
  let raw ← PostStore.read store post
  let stripped := Content.stripAdvanced policy visitor switches raw
  if stripped = raw then .ok (false, store)
  else .ok (true, ← PostStore.write store post stripped)

structure MemoryStore where
  -- Posts in memory. Only posts that are there can be written.
  posts : Dictionary String
  -- The number of successful writes.
  writes : Nat

namespace MemoryStore

def ofPosts (posts : Dictionary String) : MemoryStore := ⟨posts, 0⟩

def read (s : MemoryStore) (post : String) : Except StoreError String :=
  match s.posts[post]? with
  | some content => .ok content
  | none => .error (.notFound post)

def write (s : MemoryStore) (post content : String) : Except StoreError MemoryStore :=
  if s.posts.contains post then .ok ⟨s.posts.insert post content, s.writes + 1⟩
  else .error (.notFound post)

instance : PostStore MemoryStore := ⟨read, write⟩

end MemoryStore

structure FileStore where
  root : String
  tree : Tree

namespace FileStore

def pathOf (s : FileStore) (post : String) : Except StoreError String :=
  -- The path of a post. Ids that may lead out of the directory have none.
  if post = "" ∨ Path.isAbsolute post ∨ ".." ∈ Path.names post then .error (.invalidPost post)
  else .ok (Path.join s.root post)

def read (s : FileStore) (post : String) : Except StoreError String := do
  match s.tree.read (← s.pathOf post) with
  | .ok content => .ok content
  | .error .notFound => .error (.notFound post)
  | .error e => .error (.failed post e)

def write (s : FileStore) (post content : String) : Except StoreError FileStore := do
  match s.tree.write (← s.pathOf post) content with
  | .ok tree => .ok { s with tree }
  | .error e => .error (.failed post e)

instance : PostStore FileStore := ⟨read, write⟩

end FileStore

end VisibilityRules
