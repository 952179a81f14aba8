import DialogueScript.Plain

/-!
# Documents

What comes of a text that is read as a document.  How documents are written is left to whoever reads
them: a reader is a function from texts to documents, and what uses one takes it along.
-/

namespace DialogueScript

/-- A text that was read as a document. -/
inductive Document where
  | data (p : Plain)
  /-- The text is no document. -/
  | malformed (why : String)
  /-- The text is a document, and something in it stands for no data. -/
  | meaningless (why : String)

end DialogueScript
