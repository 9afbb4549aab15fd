import IpDedup.App.CommandRender
import IpDedup.App.Invocation
import IpDedup.App.JsonRun
import IpDedup.App.Pipeline
import IpDedup.App.StdinOnce
import IpDedup.Ip.Ip6Halves
import IpDedup.Parse.Ip4Language
import IpDedup.Parse.Ip6Language
import IpDedup.Parse.Strict
import IpDedup.Print.Ip6Text
import IpDedup.Tree.AutoCollapse
import IpDedup.Tree.OutOfMemory
import IpDedup.Tree.Purged
import IpDedup.Util.DynarrayRuns
