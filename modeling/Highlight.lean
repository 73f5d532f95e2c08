import Highlight.Main
import Highlight.Keywords.Loop
import Highlight.Line.ByteLoop
import Highlight.Proofs.CommentState
import Highlight.Proofs.LineIndex
import Highlight.Proofs.Session
import Highlight.Proofs.Automaton
import Highlight.Proofs.Grammar
import Highlight.Proofs.MarkerWindow
import Highlight.Proofs.TextLabels
import Highlight.Proofs.BufferHistory
import Highlight.Proofs.WordRuns
import Highlight.Proofs.Pieces
import Highlight.Proofs.Tiling
import Highlight.Proofs.WholeWords
import Highlight.Proofs.CacheHistory
import Highlight.Proofs.Repaint
import Highlight.Proofs.RegistryLog
import Highlight.Proofs.Listing
import Highlight.Proofs.MarkerPlaces
import Highlight.Proofs.Clip
import Highlight.Proofs.MissedEdits
import Highlight.Proofs.Segments
import Highlight.Proofs.KeywordUnion
import Highlight.Proofs.KeywordGaps
import Highlight.Proofs.Edges
import Highlight.Proofs.NumberSigns
import Highlight.Proofs.CommentOpeners
import Highlight.Proofs.UndoLog
import Highlight.Proofs.Arguments
import Highlight.Proofs.Verdict
import Highlight.Proofs.TomlValues
import Highlight.Proofs.TomlLibrary
import Highlight.Proofs.TomlLines
import Highlight.Proofs.LanguageTables
import Highlight.Proofs.CacheStorage
import Highlight.Proofs.WholeCharacters
import Highlight.Proofs.ForwardReading
import Highlight.Proofs.MatchLoop
import Highlight.Proofs.ByteLoop
